import Stencil.Decimal.Read
import Stencil.Script.Routine.Container
import Stencil.Script.Signature

/-!
Calling classes: conversions to the kinds of the library, new errors, and new instances of classes
that source defined. A class with methods that are still missing has no instances.
-/

namespace Stencil.Script.Construct

open Run

def spelledInt? (s : String) : Option Int :=
  match Text.trim s.toList with
  | '+' :: ds => (Decimal.nat? ds).map Int.ofNat
  | '-' :: ds => (Decimal.nat? ds).map fun n => -Int.ofNat n
  | ds => (Decimal.nat? ds).map Int.ofNat

def digitIn? (base : Nat) (c : Char) : Option Nat :=
  let v := if c.isDigit then some (c.toNat - '0'.toNat)
    else if 'a' ≤ c && c ≤ 'z' then some (c.toNat - 'a'.toNat + 10)
    else if 'A' ≤ c && c ≤ 'Z' then some (c.toNat - 'A'.toNat + 10)
    else none
  v.filter (· < base)

def baseOf : List Char → Nat
  | '0' :: 'x' :: _ | '0' :: 'X' :: _ => 16
  | '0' :: 'o' :: _ | '0' :: 'O' :: _ => 8
  | '0' :: 'b' :: _ | '0' :: 'B' :: _ => 2
  | _ => 10

def spelledIn? (given : Nat) (s : String) : Option Int :=
  let (negative, ds) := match Text.trim s.toList with
    | '-' :: ds => (true, ds)
    | '+' :: ds => (false, ds)
    | ds => (false, ds)
  let base := if given = 0 then baseOf ds else given
  let ds := match base, ds with
    | 16, '0' :: 'x' :: t | 16, '0' :: 'X' :: t | 8, '0' :: 'o' :: t | 8, '0' :: 'O' :: t
    | 2, '0' :: 'b' :: t | 2, '0' :: 'B' :: t => t
    | _, ds => ds
  if ds.isEmpty then none
  else
    (ds.mapM (digitIn? base)).map fun vs =>
      let n : Int := Int.ofNat (vs.foldl (fun n v => n * base + v) 0)
      if negative then -n else n

def wholePart (x : Float) : Run Value := do
  match Number.common x 1.0 with
  | some (a, b, _) => return .int (Int.tdiv a b)
  | none =>
    if x.isNaN then valueError "cannot convert float NaN to integer"
    else raise "OverflowError" "cannot convert float infinity to integer"

def namedBase (args : List Value) (named : List (String × Value)) : Run (List Value) := do
  match named with
  | [] => return []
  | [("base", b)] =>
    if args.isEmpty then typeError "int() missing string argument" else return [b]
  | (n, _) :: _ => invalidName "int" n

def toInt (d : Deeper) (args : List Value) (named : List (String × Value)) : Run Value := do
  match args ++ (← namedBase args named) with
  | [] => return .int 0
  | [.text s] =>
    match spelledInt? s with
    | some i => return .int i
    | none => valueError ("invalid literal for int() with base 10: " ++ Text.quoted s)
  | [.float x] => wholePart x
  | [v] =>
    match v.integer? with
    | some i => return .int i
    | none =>
      match ← definedMethod? v "__int__" with
      | some f => d.call f [v] []
      | none =>
        typeError ("int() argument must be a string, a bytes-like object or a real number, not '"
          ++ (← kindOf v) ++ "'")
  | [.text s, base] =>
    let b ← TextMethods.needInt base
    if b ≠ 0 && (b < 2 || 36 < b) then valueError "int() base must be >= 2 and <= 36, or 0"
    match spelledIn? b.toNat s with
    | some i => return .int i
    | none =>
      valueError ("invalid literal for int() with base " ++ toString b ++ ": " ++ Text.quoted s)
  | [_, _] => typeError "int() can't convert non-string with explicit base"
  | _ => tooManyArguments "int" 2 args.length

def toFloat (d : Deeper) (args : List Value) : Run Value := do
  match args with
  | [] => return .float 0.0
  | [.text s] =>
    match Decimal.float? (String.ofList (Text.trim s.toList)) with
    | some x => return .float x
    | none => valueError ("could not convert string to float: " ++ Text.quoted s)
  | [v] =>
    match v.number? with
    | some n =>
      match n.toFloat with
      | .ok x => return .float x
      | .error e => raise e.kind e.message
    | none =>
      match ← definedMethod? v "__float__" with
      | some f => d.call f [v] []
      | none =>
        typeError ("float() argument must be a string or a real number, not '" ++ (← kindOf v) ++ "'")
  | _ => tooManyArguments "float" 1 args.length

def toRange (args : List Value) : Run Value := do
  let ns ← args.mapM TextMethods.needInt
  match ns with
  | [b] => return .range 0 b 1
  | [a, b] => return .range a b 1
  | [a, b, c] =>
    if c = 0 then valueError "range() arg 3 must not be zero" else return .range a b c
  | [] => typeError "range expected at least 1 argument, got 0"
  | _ => tooManyArguments "range" 3 ns.length

def toBytes (d : Deeper) (args : List Value) : Run Value := do
  match args with
  | [] => return .bytes []
  | [.bytes bs] => return .bytes bs
  | [.text _] => typeError "string argument without an encoding"
  | [.text s, _] => return .bytes s.toUTF8.toList
  | [.int n] =>
    if n < 0 then valueError "negative count" else return .bytes (List.replicate n.toNat 0)
  | v :: _ => do
    let items ← itemsOf d v
    let bs ← items.mapM fun item => do
      let i ← TextMethods.needInt item
      if 0 ≤ i && i < 256 then pure (UInt8.ofNat i.toNat)
      else valueError "bytes must be in range(0, 256)"
    return .bytes bs

def zipped : Nat → List (List Value) → List Value
  | 0, _ => []
  | fuel + 1, lists =>
    if lists.isEmpty || lists.any List.isEmpty then []
    else .tuple (lists.map fun l => l.headD .none) :: zipped fuel (lists.map List.tail)

def mapped (d : Deeper) (f : Value) : List (List Value) → Run Remaining
  | [] => return ⟨[], none⟩
  | args :: rest => do
    let r ← handling (Except.ok <$> d.call f args []) fun error => pure (Except.error error)
    match r with
    | .error error => return ⟨[], some error⟩
    | .ok v =>
      let more ← mapped d f rest
      return { more with items := v :: more.items }

def filtered (d : Deeper) (f : Value) : List Value → Run Remaining
  | [] => return ⟨[], none⟩
  | v :: rest => do
    let r ← handling (Except.ok <$> (do
      match f with
      | .none => truth d v
      | f => truth d (← d.call f [v] []))) fun error => pure (Except.error error)
    match r with
    | .error error => return ⟨[], some error⟩
    | .ok keep =>
      let more ← filtered d f rest
      return if keep then { more with items := v :: more.items } else more

def enumerated (d : Deeper) (args : List Value) (named : List (String × Value)) : Run Value := do
  if args.isEmpty then typeError "enumerate() missing required argument 'iterable'"
  let given ← arguments ⟨"enumerate", ["iterable", "start"], 0, 1⟩ args named
  let first ← match argument given 1 with
    | some v => TextMethods.needInt v
    | none => pure 0
  let rest ← remaining d stepLimit (← start d ((argument given 0).getD .none)) []
  new (.iterator "enumerate" { rest with
    items := rest.items.zipIdx.map fun (v, i) => .tuple [.int (first + (i : Int)), v] })

def missingOf (c : ClassRef) : Run (List String) := do
  match c with
  | .library name => return Library.missing name
  | .defined ref =>
    match ← object ref with
    | .cls k => return k.missing
    | _ => return []

def complete (c : ClassRef) : Run Unit := do
  match ← missingOf c with
  | [] => pure ()
  | names =>
    typeError ("Can't instantiate abstract class " ++ (← nameOf c) ++ " with abstract method"
      ++ (if names.length = 1 then " " else "s ") ++ ", ".intercalate names)

def setUp (d : Deeper) (c : ClassRef) (self : Value) (args : List Value)
    (named : List (String × Value)) : Run Unit := do
  match ← inheritedAttribute c "__init__" with
  | some (.defined _, f) =>
    match ← d.call (← bind d self c f) args named with
    | .none => pure ()
    | r => typeError ("__init__() should return None, not '" ++ (← kindOf r) ++ "'")
  | some (_, .routine "builtins.object.__init__") =>
    if args.isEmpty && named.isEmpty then pure ()
    else typeError ((← nameOf c) ++ "() takes no arguments")
  | some (_, .routine "builtins.BaseException.__init__") => pure ()
  | some (_, f) =>
    let _ ← d.call (← bind d self c f) args named
  | none => pure ()

def importNames : List String := ["name", "path"]

/-- The class of an error that is raised with these arguments: a number may say more than the class. -/
def errorClass (c : ClassRef) (args : List Value) : ClassRef :=
  match args with
  | .int code :: _ :: rest =>
    if c == .builtin "OSError" && rest.length ≤ 3 then
      ((Library.systemErrors.lookup code).map ClassRef.builtin).getD c
    else c
  | _ => c

/-- Refuses an error about an encoding that is raised with too little or too much. -/
def checkEncodingError (c : ClassRef) (args : List Value) : Run Unit := do
  let needed := if c == .builtin "UnicodeDecodeError" || c == .builtin "UnicodeEncodeError" then 5
    else if c == .builtin "UnicodeTranslateError" then 4 else args.length
  if args.length ≠ needed then
    typeError ("function takes exactly " ++ toString needed ++ " arguments ("
      ++ toString args.length ++ " given)")

def newInstance (d : Deeper) (c : ClassRef) (args : List Value) (named : List (String × Value)) :
    Run Value := do
  complete c
  if ← derives c (.builtin "BaseException") then
    checkEncodingError c args
    let self ← new (.error (errorClass c args) args {} [])
    match ← inheritedAttribute c "__init__" with
    | some (.defined _, _) => setUp d c self args named
    | _ =>
      if named.isEmpty then pure ()
      else if ← derives c (.builtin "ImportError") then
        for (k, v) in named.filter fun (k, _) => importNames.contains k do
          setMember d self k v
      else typeError ((← nameOf c) ++ "() takes no keyword arguments")
    return self
  else
    let self ← new (.instance c {})
    setUp d c self args named
    return self

def unnamed : List String :=
  ["list", "tuple", "set", "frozenset", "float", "bool", "range", "map", "filter", "reversed", "slice"]

def construct (d : Deeper) (name : String) (args : List Value) (named : List (String × Value)) :
    Run Value := do
  let short := (Library.split name).2
  let wrap := fun (binding : Binding) => do
    match args with
    | f :: _ => new (.wrapped binding f)
    | [] => new (.wrapped binding .none)
  let one := fun (empty : Run Value) (f : Value → Run Value) => do
    match args with
    | [] => empty
    | [v] => f v
    | _ => tooManyArguments short 1 args.length
  if unnamed.contains short then noNames short named
  match name with
  | "builtins.str" =>
    let given ← match named with
      | [] => pure args
      | [("object", v)] => pure (v :: args)
      | (n, _) :: _ => if ["encoding", "errors"].contains n then pure args else invalidName "str" n
    match given with
    | [] => return .text ""
    | [v] => return .text (← plainStep d v)
    | .bytes bs :: _ =>
      match String.fromUTF8? ⟨bs.toArray⟩ with
      | some s => return .text s
      | none => raise "UnicodeDecodeError" "'utf-8' codec can't decode bytes"
    | v :: _ =>
      typeError ("decoding to str: need a bytes-like object, " ++ (← kindOf v) ++ " found")
  | "builtins.int" => toInt d args named
  | "builtins.float" => toFloat d args
  | "builtins.bool" => one (pure (.bool false)) fun v => do return .bool (← truth d v)
  | "builtins.list" => one (newList []) fun v => do newList (← itemsOf d v)
  | "builtins.tuple" => one (pure (.tuple [])) fun v => do return .tuple (← itemsOf d v)
  | "builtins.set" =>
    one (new (.set false [])) fun v => do new (.set false (← distinct d [] (← itemsOf d v)))
  | "builtins.frozenset" =>
    one (new (.set true [])) fun v => do new (.set true (← distinct d [] (← itemsOf d v)))
  | "builtins.dict" =>
    let base ← match args with
      | [] => pure []
      | [v] => Containers.pairsOf d v
      | _ => tooManyArguments "dict" 1 args.length
    new (.dict (← putEntries d [] (base ++ named.map fun (k, v) => (.text k, v))))
  | "builtins.bytes" | "builtins.bytearray" => toBytes d args
  | "builtins.range" => toRange args
  | "builtins.slice" =>
    match args with
    | [b] => return .slice .none b .none
    | [a, b] => return .slice a b .none
    | [a, b, c] => return .slice a b c
    | _ => tooFewArguments "slice" 1 args.length
  | "builtins.type" =>
    match args with
    | [v] => return .cls (← classOf v)
    | _ => typeError "type() takes 1 or 3 arguments"
  | "builtins.enumerate" => enumerated d args named
  | "builtins.zip" =>
    let lists ← args.mapM (itemsOf d)
    newIterator "zip" (zipped ((lists.map List.length).foldl max 0) lists)
  | "builtins.map" =>
    match args with
    | f :: first :: rest =>
      let lists ← (first :: rest).mapM (itemsOf d)
      let rows := (zipped ((lists.map List.length).foldl max 0) lists).map fun
        | .tuple vs => vs
        | v => [v]
      new (.iterator "map" (← mapped d f rows))
    | _ => typeError "map() must have at least two arguments."
  | "builtins.filter" =>
    match args with
    | [f, v] => new (.iterator "filter" (← filtered d f (← itemsOf d v)))
    | _ => typeError ("filter expected 2 arguments, got " ++ toString args.length)
  | "builtins.reversed" =>
    one (tooFewArguments "reversed" 1 0) fun v => do newIterator "reversed" (← itemsOf d v).reverse
  | "builtins.property" => wrap .ofProperty
  | "builtins.staticmethod" => wrap .ofStatic
  | "builtins.classmethod" => wrap .ofClass
  | "builtins.super" =>
    match args with
    | [.cls c, self] => new (.inherited c self)
    | _ => raise "RuntimeError" "super(): no arguments"
  | "typing.TypeVar" | "typing.ParamSpec" =>
    match args with
    | .text n :: _ => new (.foreign (Library.split name).2 ("~" ++ n))
    | _ => typeError "TypeVar.__new__() missing 1 required positional argument: 'name'"
  | "typing.Any" => typeError "Any cannot be instantiated"
  | _ => newInstance d (.library name) args named

end Stencil.Script.Construct
