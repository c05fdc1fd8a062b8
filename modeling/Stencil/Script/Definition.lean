import Stencil.Script.Routine.Construct

/-!
Class definitions: what stands among the bases of a class is turned into classes, the order in which
attributes are looked for is settled, and the methods that still have to be defined are noted.
-/

namespace Stencil.Script.Definition

open Run

def typeVariables : Nat → List Value → Run (List Value)
  | 0, _ => return []
  | _, [] => return []
  | depth + 1, v :: rest => do
    let own ← match v with
      | .form "TModel" | .form "AnyStr" => pure [v]
      | .aliasOf _ args => typeVariables depth args
      | .object ref => do
        match ← object ref with
        | .foreign "TypeVar" _ => pure [v]
        | _ => pure []
      | _ => pure []
    return own ++ (← typeVariables depth rest)

def withoutRepeats : List Value → List Value → List Value
  | kept, [] => kept.reverse
  | kept, v :: rest =>
    if kept.any (Value.identical v) then withoutRepeats kept rest else withoutRepeats (v :: kept) rest

def classOfForm? (name : String) : Option Value :=
  ["List", "Dict", "Tuple", "Set", "FrozenSet", "Type"].find? (· == name) |>.map fun n =>
    .cls (.builtin (Text.lower n))

def isAlias : Value → Bool
  | .aliasOf _ _ => true
  | _ => false

def basesFor (written : List Value) (v : Value) : Run (List Value) := do
  match v with
  | .aliasOf origin _ =>
    match origin with
    | .cls (.library "typing.Generic") =>
      let later := (written.dropWhile fun w => !Value.identical w v).drop 1
      return if later.any isAlias then [] else [origin]
    | .form name =>
      match classOfForm? name with
      | some c => return [c, .cls (.library "typing.Generic")]
      | none => typeError ("Cannot subclass typing." ++ name)
    | _ => return [origin]
  | .form name =>
    match classOfForm? name with
    | some c => return [c, .cls (.library "typing.Generic")]
    | none => typeError ("Cannot subclass typing." ++ name)
  | v => return [v]

def resolveBases (written : List Value) : List Value → Run (List Value)
  | [] => return []
  | v :: rest => do return (← basesFor written v) ++ (← resolveBases written rest)

def isClass : Value → Bool
  | .cls _ => true
  | _ => false

def checkKinds (bases : List Value) : Run Unit :=
  if 1 < bases.length && bases.any fun v => !isClass v then
    typeError ("metaclass conflict: the metaclass of a derived class must be a (non-strict) "
      ++ "subclass of the metaclasses of all its bases")
  else pure ()

/-- A base that is a value: its class is asked for a value instead of a new class. -/
def fromValue (d : Deeper) (name : String) (base attributes : Value) : Run Value := do
  let kind ← kindOf base
  match ← classOf base with
  | .defined ref => d.call (.cls (.defined ref)) [.text name, .tuple [base], attributes] []
  | .library _ =>
    match kind with
    | "int" => typeError "int() takes at most 2 arguments (3 given)"
    | "str" | "bytes" =>
      typeError (kind ++ "() argument 'encoding' must be str, not tuple")
    | "NoneType" => typeError "NoneType takes no arguments"
    | "ellipsis" => typeError "EllipsisType takes no arguments"
    | "module" => typeError "module() takes at most 2 arguments (3 given)"
    | "function" => typeError "function() argument 'code' must be code, not str"
    | "method" => typeError "method expected 2 arguments, got 3"
    | "builtin_function_or_method" | "generator" =>
      typeError ("cannot create '" ++ kind ++ "' instances")
    | "bool" | "float" | "list" | "tuple" | "dict" | "set" | "frozenset" =>
      typeError (kind ++ " expected at most 1 argument, got 3")
    | _ => typeError (kind ++ "() takes at most 2 arguments (3 given)")

def finalClasses : List String :=
  ["bool", "NoneType", "ellipsis", "function", "method", "range", "slice", "memoryview",
   "builtin_function_or_method", "generator"].map Library.builtin

def ownLayouts : List String :=
  (["int", "float", "complex", "str", "bytes", "bytearray", "list", "tuple", "dict", "set", "frozenset",
    "type", "BaseException", "OSError", "SyntaxError", "ImportError", "AttributeError", "NameError",
    "StopIteration", "SystemExit", "UnicodeDecodeError", "UnicodeEncodeError", "property"]).map
      Library.builtin

def layoutOf (c : ClassRef) : Run (Option ClassRef) := do
  return (← orderOf c).find? fun
    | .library name => ownLayouts.contains name
    | .defined _ => false

def checkLayout : Option ClassRef → List ClassRef → Run Unit
  | _, [] => pure ()
  | best, c :: rest => do
    match best, ← layoutOf c with
    | _, none => checkLayout best rest
    | none, some l => checkLayout (some l) rest
    | some b, some l =>
      if ← derives b l then checkLayout (some b) rest
      else if ← derives l b then checkLayout (some l) rest
      else typeError "multiple bases have instance lay-out conflict"

def checkBases : List ClassRef → Run Unit
  | [] => pure ()
  | c :: rest => do
    match c with
    | .library name =>
      if finalClasses.contains name then
        typeError ("type '" ++ (← nameOf c) ++ "' is not an acceptable base type")
    | .defined _ => pure ()
    checkBases rest

def checkRepeats : List ClassRef → Run Unit
  | [] => pure ()
  | c :: rest => do
    if rest.contains c then typeError ("duplicate base class " ++ (← nameOf c))
    checkRepeats rest

def orderFor (self : ClassRef) (bases : List ClassRef) : Run (List ClassRef) := do
  checkRepeats bases
  let orders ← bases.mapM orderOf
  let lists := orders ++ [bases]
  match Class.merge (lists.flatten.length + 1) lists with
  | .ok order => return self :: order
  | .error heads =>
    let names ← heads.mapM nameOf
    typeError ("Cannot create a consistent method resolution\norder (MRO) for bases "
      ++ ", ".intercalate names)

def isAbstract (v : Value) : Run Bool := do
  match v with
  | .routine name => return name == Library.full Library.templateClass "execute"
  | .object ref =>
    let marked := fun (r : Nat) => do
      match ← object r with
      | .function f => return (match f.attributes.get? "__isabstractmethod__" with
        | some (.bool b) => b
        | _ => false)
      | _ => return false
    match ← object ref with
    | .function _ => marked ref
    | .wrapped _ (.object r) => marked r
    | _ => return false
  | _ => return false

def missingIn (self : ClassRef) (attributes : Bindings Value) (bases : List ClassRef) :
    Run (List String) := do
  let own ← attributes.entries.filterM fun (_, v) => isAbstract v
  let before ← bases.mapM Construct.missingOf
  let inherited ← before.flatten.filterM fun name => do
    match ← inheritedAttribute self name with
    | some (_, v) => isAbstract v
    | none => return false
  return ((own.map Prod.fst ++ inherited).eraseDups.mergeSort fun a b => a ≤ b)

def genericAttributes (written bases : List Value) (order : List ClassRef)
    (attributes : Bindings Value) : Run (Bindings Value) := do
  let attributes := if written.any isAlias || written.length != bases.length
    then attributes.set "__orig_bases__" (.tuple written) else attributes
  if order.contains (.library "typing.Generic") then
    let plain := (if attributes.has "__orig_bases__" then written else bases).any
      (Value.identical (.cls (.library "typing.Generic")))
    if plain then typeError "Cannot inherit from plain Generic"
    let found ← typeVariables 64 written
    return attributes.set "__parameters__" (.tuple (withoutRepeats [] found))
  else return attributes

def announce (d : Deeper) (self : ClassRef) (order : List ClassRef)
    (named : List (String × Value)) : Run Unit := do
  match ← findAlong "__init_subclass__" order.tail with
  | some (_, .object ref) =>
    let f ← match ← object ref with
      | .wrapped _ f => pure f
      | _ => pure (.object ref)
    let _ ← d.call f [.cls self] named
  | _ =>
    if named.isEmpty then pure ()
    else typeError ((← nameOf self) ++ ".__init_subclass__() takes no keyword arguments")

def finish (d : Deeper) (ref : Nat) (written bases : List Value) (named : List (String × Value)) :
    Run Value := do
  let self := ClassRef.defined ref
  match ← object ref with
  | .cls c =>
    match bases.find? fun v => !isClass v with
    | some v => fromValue d c.name v (.object ref)
    | none =>
      let classes := bases.filterMap fun
        | .cls k => some k
        | _ => none
      let classes := if classes.isEmpty then [.builtin "object"] else classes
      checkBases classes
      checkLayout none classes
      let path ← match c.attributes.get? "__qualname__" with
        | some (.text p) => pure p
        | some v => typeError ("type __qualname__ must be a str, not " ++ (← kindOf v))
        | none => pure c.path
      let order ← orderFor self classes
      let attributes ← genericAttributes written bases order (c.attributes.erase "__qualname__")
      modifyHeap ref (.cls { c with path, bases := classes, order, attributes })
      if order.contains (.library "abc.ABC") then
        let missing ← missingIn self attributes classes
        modifyHeap ref (.cls { c with path, bases := classes, order, attributes, missing })
      announce d self order (named.filter fun (n, _) => n != "metaclass")
      return .cls self
  | _ => return .none

end Stencil.Script.Definition
