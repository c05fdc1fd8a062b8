import Stencil.Script.Machine

/-!
Classes of values: which class a value has, what a class inherits from and in which order, and where
a name is found along that order.
-/

namespace Stencil.Script

namespace ClassRef

def builtin (name : String) : ClassRef := library (Library.builtin name)

end ClassRef

namespace Class

def dropHead (c : ClassRef) : List ClassRef → List ClassRef
  | [] => []
  | d :: rest => if c = d then rest else d :: rest

/-- The first class at the front of a list that stands behind the front of none. -/
def candidate? (lists : List (List ClassRef)) : Option ClassRef :=
  lists.findSome? fun
    | c :: _ => if lists.all fun l => !l.tail.contains c then some c else none
    | [] => none

/-- Merges orders into one that keeps each of them; where they contradict one another, the classes
that none of them lets come first. -/
def merge : Nat → List (List ClassRef) → Except (List ClassRef) (List ClassRef)
  | 0, _ => .ok []
  | fuel + 1, lists =>
    match lists.filter fun l => !l.isEmpty with
    | [] => .ok []
    | rest =>
      match candidate? rest with
      | none => .error (rest.filterMap List.head?).eraseDups
      | some c => (merge fuel (rest.map (dropHead c))).map (c :: ·)

end Class

namespace Run

def orderOf (c : ClassRef) : Run (List ClassRef) := do
  match c with
  | .library name => return (Library.order name).map .library
  | .defined ref =>
    match ← object ref with
    | .cls c => return c.order
    | _ => return [c]

def derives (c base : ClassRef) : Run Bool := return (← orderOf c).contains base

def nameOf (c : ClassRef) : Run String := do
  match c with
  | .library name => return (Library.split name).2
  | .defined ref =>
    match ← object ref with
    | .cls c => return c.name
    | _ => return "type"

def pathOf (c : ClassRef) : Run String := do
  match c with
  | .library _ => nameOf c
  | .defined ref =>
    match ← object ref with
    | .cls c => return c.path
    | _ => return "type"

def moduleOf (c : ClassRef) : Run Value := do
  match c with
  | .library name => return .text (Library.split name).1
  | .defined ref =>
    match ← object ref with
    | .cls c => return (c.attributes.get? "__module__").getD (.text "builtins")
    | _ => return .none

def isSourceRoutine (name : String) : Bool :=
  ["json", "html", "typing", "abc"].any fun m => name.startsWith (m ++ ".")

def isMethodRoutine (name : String) : Bool :=
  !(Library.methods (Library.split name).1).isEmpty

def plainClass (v : Value) : String :=
  match v with
  | .none => "builtins.NoneType"
  | .ellipsis => "builtins.ellipsis"
  | .notImplemented => "builtins.NotImplementedType"
  | .bool _ => "builtins.bool"
  | .int _ => "builtins.int"
  | .float _ => "builtins.float"
  | .text _ => "builtins.str"
  | .bytes _ => "builtins.bytes"
  | .tuple _ => "builtins.tuple"
  | .range _ _ _ => "builtins.range"
  | .slice _ _ _ => "builtins.slice"
  | .cls _ => "builtins.type"
  | .routine name =>
    if name.startsWith "kiln." || isSourceRoutine name then "builtins.function"
    else if isMethodRoutine name then "builtins.method_descriptor"
    else "builtins.builtin_function_or_method"
  | .bound _ name =>
    if name.startsWith "kiln." || isSourceRoutine name then "builtins.method"
    else "builtins.builtin_function_or_method"
  | .form name =>
    if name == "TModel" || name == "AnyStr" then "typing.TypeVar"
    else if Library.futureNames.contains name then "__future__._Feature"
    else if Library.specialForms.contains name then "typing._SpecialForm"
    else "typing._SpecialGenericAlias"
  | .aliasOf (.form "|") _ => "types.UnionType"
  | .aliasOf (.form "Optional") _ | .aliasOf (.form "Union") _ => "typing._UnionGenericAlias"
  | .aliasOf (.cls (.library name)) _ =>
    if name.startsWith "builtins." then "types.GenericAlias" else "typing._GenericAlias"
  | .aliasOf _ _ => "typing._GenericAlias"
  | .object _ => "builtins.object"

def objectClass : Object → ClassRef
  | .list _ => .builtin "list"
  | .dict _ | .attributesOf _ => .builtin "dict"
  | .set frozen _ => .builtin (if frozen then "frozenset" else "set")
  | .module _ => .builtin "module"
  | .cls _ => .builtin "type"
  | .function _ => .builtin "function"
  | .method _ _ => .builtin "method"
  | .wrapped .ofStatic _ => .builtin "staticmethod"
  | .wrapped .ofClass _ => .builtin "classmethod"
  | .wrapped .ofProperty _ => .builtin "property"
  | .instance c _ => c
  | .error c _ _ _ => c
  | .iterator kind _ => .builtin kind
  | .scope _ _ => .builtin "object"
  | .inherited _ _ => .builtin "super"
  | .foreign kind _ => .builtin kind

def classOf (v : Value) : Run ClassRef := do
  match v with
  | .object ref => return objectClass (← object ref)
  | .cls c =>
    if ← derives c (.library "abc.ABC") then return .library "abc.ABCMeta"
    else return .builtin "type"
  | v => return .library (plainClass v)

def kindOf (v : Value) : Run String := do nameOf (← classOf v)

def isA (v : Value) (base : ClassRef) : Run Bool := do
  derives (← classOf v) base

def ownAttribute (c : ClassRef) (name : String) : Run (Option Value) := do
  match c with
  | .library full =>
    if (Library.methods full).contains name then
      return some (.routine (full ++ "." ++ name))
    else return none
  | .defined ref =>
    match ← object ref with
    | .cls c => return c.attributes.get? name
    | _ => return none

def findAlong (name : String) : List ClassRef → Run (Option (ClassRef × Value))
  | [] => return none
  | c :: rest => do
    match ← ownAttribute c name with
    | some v => return some (c, v)
    | none => findAlong name rest

def inheritedAttribute (c : ClassRef) (name : String) : Run (Option (ClassRef × Value)) := do
  findAlong name (← orderOf c)

def definedMethod? (v : Value) (name : String) : Run (Option Value) := do
  match v with
  | .object ref =>
    match ← object ref with
    | .instance c _ | .error c _ _ _ =>
      match ← inheritedAttribute c name with
      | some (.defined _, f) => return some f
      | _ => return none
    | _ => return none
  | _ => return none

end Run

end Stencil.Script
