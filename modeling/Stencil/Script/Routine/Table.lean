import Stencil.Script.Routine.Basic
import Stencil.Script.Routine.Service

/-!
Calling routines of the library by their full names. The part before the last dot says what a routine
belongs to: a module, or a class whose values it is a method of.
-/

namespace Stencil.Script.Routines

open Run

def objectMethod (short : String) (d : Deeper) (self : Value) (args : List Value) : Run Value := do
  match short, args with
  | "__init__", [] => return .none
  | "__init__", _ =>
    typeError "object.__init__() takes exactly one argument (the instance to initialize)"
  | "__str__", _ => return .text (← d.quoted self)
  | "__repr__", _ =>
    match self with
    | .object ref => return .text ("<" ++ (← fullName (← classOf self)) ++ " object at "
        ++ placeText ref ++ ">")
    | v => return .text (← d.quoted v)
  | "__eq__", [other] => return if Value.identical self other then .bool true else .notImplemented
  | "__ne__", [other] => return if Value.identical self other then .bool false else .notImplemented
  | "__hash__", _ => Basic.function "hash" d [self] []
  | "__setattr__", [.text name, value] => do
    match self with
    | .object ref => putAttribute ref name value
    | v => setMember d v name value
    return .none
  | "__getattribute__", [.text name] => getMember d self name
  | "__format__", [.text layout] => do return .text (← Basic.laidPlain d self layout)
  | _, _ => typeError ("object." ++ short ++ "() takes other arguments")

def errorMethod (short : String) (d : Deeper) (self : Value) (args : List Value) : Run Value := do
  match self with
  | .object ref =>
    match ← object ref with
    | .error c known attrs trace =>
      match short with
      | "__init__" => do
        modifyHeap ref (.error c args attrs trace)
        return .none
      | "__str__" => return .text (← plainError d c known attrs)
      | "__repr__" => return .text ((← nameOf c) ++ argumentsText (← quotedAll d known))
      | "with_traceback" => return self
      | _ => return .none
    | _ => return .none
  | _ => return .none

def itemMethod? (short : String) (d : Deeper) (self : Value) (args : List Value) :
    Option (Run Value) :=
  match short, args with
  | "__len__", [] => some (lengthOf d self)
  | "__iter__", [] => some (Basic.function "iter" d [self] [])
  | "__getitem__", [k] => some (getItem d self k)
  | "__setitem__", [k, v] => some do
    setItem d self k v
    return .none
  | "__contains__", [v] => some do return .bool (← contains d self v)
  | "__add__", [v] => some (binary d .add "+" self v)
  | _, _ => none

def numberMethod (short : String) (self : Value) : Run Value := do
  match short, self.number? with
  | "bit_length", some (.int i) => return .int (if i = 0 then 0 else i.natAbs.log2 + 1)
  | "is_integer", some (.float x) => return .bool (x.floor == x)
  | _, some n => return Value.ofNumber n
  | _, none => return self

def method (owner short : String) (d : Deeper) (self : Value) (args : List Value)
    (named : List (String × Value)) : Run Value := do
  match owner with
  | "builtins.object" => objectMethod short d self args
  | "builtins.BaseException" => errorMethod short d self args
  | "builtins.type" =>
    match self with
    | .cls c => newList ((← orderOf c).map .cls)
    | _ => return .none
  | "json.decoder.JSONDecoder" => Service.loads args
  | "json.encoder.JSONEncoder" => Service.dumps d args named
  | _ =>
    match itemMethod? short d self args with
    | some r => r
    | none =>
      match self with
      | .text s => TextMethods.method short d s args named
      | .bytes bs => TextMethods.bytesMethod short bs args
      | .tuple items => Containers.tupleMethod short d items args
      | .object ref =>
        let o ← object ref
        match o with
        | .list items => Containers.listMethod short d ref items args named
        | .dict _ | .attributesOf _ =>
          Containers.dictMethod short d ref (← entriesOf o) args named
        | .set frozen items => Containers.setMethod short d ref frozen items args
        | .iterator _ _ => Containers.iteratorMethod short ref args
        | _ => return .none
      | v => numberMethod short v

def unboundMethod (owner short : String) (d : Deeper) (args : List Value)
    (named : List (String × Value)) : Run Value := do
  let kind := (Library.split owner).2
  match args with
  | [] => typeError ("unbound method " ++ kind ++ "." ++ short ++ "() needs an argument")
  | self :: rest =>
    if (owner == "builtins.object") || (← isA self (.library owner)) then
      method owner short d self rest named
    else
      typeError ("descriptor '" ++ short ++ "' for '" ++ kind ++ "' objects doesn't apply to a '"
        ++ (← kindOf self) ++ "' object")

def orderTest? (sign : String) : Option OrderTest :=
  [OrderTest.less, .atMost, .greater, .atLeast].find? fun t => t.sign == sign

def json (short : String) (d : Deeper) (args : List Value) (named : List (String × Value)) :
    Run Value := do
  match short with
  | "dumps" => Service.dumps d args named
  | "loads" => Service.loads args
  | _ => raise "NotImplementedError" ("json." ++ short)

def markup (short : String) (d : Deeper) (args : List Value) (named : List (String × Value)) :
    Run Value := do
  match short, args with
  | "unescape", [.text s] =>
    return .text (String.ofList (Service.unescape s.length s.toList))
  | _, _ => Service.escape d args named

def warnings (short : String) (d : Deeper) (args : List Value) (named : List (String × Value)) :
    Run Value := do
  match short with
  | "warn" => Service.warn d args named
  | "warn_explicit" => Service.warnExplicit d args named
  | _ => raise "NotImplementedError" ("warnings." ++ short)

def call (name : String) (d : Deeper) (args : List Value) (named : List (String × Value)) :
    Run Value := do
  let (owner, short) := Library.split name
  match owner with
  | "builtins" => Basic.function short d args named
  | "json" => json short d args named
  | "html" => markup short d args named
  | "warnings" => warnings short d args named
  | "typing" => Service.typing short args
  | "abc" => Service.mark d args
  | "operator" =>
    match orderTest? short, args with
    | some t, [a, b] => ordered d t a b
    | _, _ => return .none
  | _ =>
    if owner == Library.templateClass then Service.template short d args named
    else unboundMethod owner short d args named

def callBound (self : Value) (name : String) (d : Deeper) (args : List Value)
    (named : List (String × Value)) : Run Value :=
  let (owner, short) := Library.split name
  if owner == Library.templateClass then Service.template short d (self :: args) named
  else method owner short d self args named

end Stencil.Script.Routines
