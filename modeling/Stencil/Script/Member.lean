import Stencil.Script.Sequence

/-!
Members of values: reading, setting and deleting what stands under a name. A function found on the
class of a value is bound to the value; what a module or an instance has itself is handed out as it
is.
-/

namespace Stencil.Script.Run

/-- What a class hands out for a value of it: functions are bound to the value. -/
def bind (d : Deeper) (self : Value) (c : ClassRef) (found : Value) : Run Value := do
  match found with
  | .routine name => if isMethodRoutine name then return .bound self name else return found
  | .object ref =>
    match ← object ref with
    | .function _ => new (.method self found)
    | .wrapped .ofStatic f => return f
    | .wrapped .ofClass f => new (.method (.cls c) f)
    | .wrapped .ofProperty f => d.call f [self] []
    | _ => return found
  | _ => return found

def bindToClass (c : ClassRef) (found : Value) : Run Value := do
  match found with
  | .object ref =>
    match ← object ref with
    | .wrapped .ofStatic f => return f
    | .wrapped .ofClass f => new (.method (.cls c) f)
    | _ => return found
  | _ => return found

def noAttribute {α : Type} (v : Value) (name : String) : Run α := do
  raise "AttributeError" ("'" ++ (← kindOf v) ++ "' object has no attribute '" ++ name ++ "'")

def inherited (d : Deeper) (v : Value) (name : String) : Run (Option Value) := do
  let c ← classOf v
  match ← inheritedAttribute c name with
  | some (_, found) => return some (← bind d v c found)
  | none => return none

def docOf (body : Body) : Value :=
  match body with
  | .statements b =>
    match Stmt.doc? b with
    | some s => .text s
    | none => .none
  | .expression _ => .none

def moduleName (ref : Nat) : Run Value := do
  return ((← get).attributes ref |>.get? "__name__").getD .none

def functionMember? (ref : Nat) (f : Closure) (name : String) : Run (Option Value) := do
  match f.attributes.get? name with
  | some v => return some v
  | none =>
    match name with
    | "__name__" => return some (.text f.name)
    | "__qualname__" => return some (.text f.path)
    | "__doc__" => return some (docOf f.body)
    | "__module__" => return some (← moduleName f.globals)
    | "__defaults__" =>
      match f.defaults.entries with
      | [] => return some .none
      | es => return some (.tuple (es.map Prod.snd))
    | "__globals__" => return some (← new (.attributesOf f.globals))
    | "__dict__" => return some (← new (.attributesOf ref))
    | _ => return none

def errorParts (owner : String) (arguments : List Value) : List (String × Value) :=
  let at_ := fun (i : Nat) => arguments[i]?.getD .none
  match owner with
  | "StopIteration" => [("value", at_ 0)]
  | "SystemExit" =>
    [("code", match arguments with
      | [] => .none
      | [v] => v
      | vs => .tuple vs)]
  | "ImportError" => [("msg", at_ 0), ("name", .none), ("path", .none)]
  | "NameError" => [("name", .none)]
  | "AttributeError" => [("name", .none), ("obj", .none)]
  | "SyntaxError" =>
    [("msg", at_ 0), ("filename", .none), ("lineno", .none), ("offset", .none), ("text", .none)]
  | "OSError" =>
    if arguments.length < 2 then [("errno", .none), ("strerror", .none), ("filename", .none)]
    else [("errno", at_ 0), ("strerror", at_ 1), ("filename", at_ 2)]
  | "UnicodeDecodeError" | "UnicodeEncodeError" =>
    [("encoding", at_ 0), ("object", at_ 1), ("start", at_ 2), ("end", at_ 3), ("reason", at_ 4)]
  | _ => []

def errorMember? (c : ClassRef) (arguments : List Value) (attrs : Bindings Value) (name : String) :
    Run (Option Value) := do
  match attrs.get? name with
  | some v => return some v
  | none =>
    match name with
    | "args" => return some (.tuple arguments)
    | "__cause__" | "__context__" | "__traceback__" => return some .none
    | "__suppress_context__" => return some (.bool false)
    | _ =>
      return (← orderOf c).findSome? fun
        | .library full => (errorParts (Library.split full).2 arguments).lookup name
        | .defined _ => none

def classMember? (c : ClassRef) (name : String) : Run (Option Value) := do
  match name with
  | "__name__" => return some (.text (← nameOf c))
  | "__qualname__" => return some (.text (← pathOf c))
  | "__module__" => return some (← moduleOf c)
  | "__mro__" => return some (.tuple ((← orderOf c).map .cls))
  | "__bases__" =>
    match c with
    | .library n => return some (.tuple ((Library.bases n).map fun b => .cls (.library b)))
    | .defined ref =>
      match ← object ref with
      | .cls k => return some (.tuple (k.bases.map .cls))
      | _ => return none
  | "__doc__" => return some ((← ownAttribute c name).getD .none)
  | "__class__" => return some (.cls (← classOf (.cls c)))
  | "__dict__" =>
    match c with
    | .defined ref => return some (← new (.attributesOf ref))
    | .library _ => return none
  | _ =>
    match ← inheritedAttribute c name with
    | some (_, found) => return some (← bindToClass c found)
    | none => return none

def member? (d : Deeper) (v : Value) (name : String) : Run (Option Value) := do
  match name, v with
  | _, .cls c => classMember? c name
  | "__class__", v => return some (.cls (← classOf v))
  | _, .aliasOf origin args =>
    match name, origin with
    | "__origin__", _ => return some origin
    | "__args__", _ => return some (.tuple args)
    | _, .cls c => classMember? c name
    | _, _ => return none
  | _, .form f =>
    match name with
    | "__name__" | "_name" => return some (.text f)
    | "__module__" => return some (.text "typing")
    | _ => return none
  | _, .routine full =>
    match name with
    | "__name__" => return some (.text (Library.split full).2)
    | "__qualname__" =>
      let (owner, short) := Library.split full
      return some (.text (if isMethodRoutine full then (Library.split owner).2 ++ "." ++ short
        else short))
    | "__module__" => return some (.text (Library.split full).1)
    | "__doc__" => return some .none
    | _ => return none
  | _, .bound self full =>
    match name with
    | "__name__" => return some (.text (Library.split full).2)
    | "__qualname__" =>
      return some (.text ((Library.split (Library.split full).1).2 ++ "." ++ (Library.split full).2))
    | "__self__" => return some self
    | "__func__" => return some (.routine full)
    | "__doc__" => return some .none
    | _ => return none
  | _, .range a b c =>
    match name with
    | "start" => return some (.int a)
    | "stop" => return some (.int b)
    | "step" => return some (.int c)
    | _ => inherited d v name
  | _, .slice a b c =>
    match name with
    | "start" => return some a
    | "stop" => return some b
    | "step" => return some c
    | _ => inherited d v name
  | _, .object ref =>
    match ← object ref with
    | .module attrs =>
      match attrs.get? name with
      | some found => return some found
      | none =>
        match name with
        | "__dict__" => return some (← new (.attributesOf ref))
        | _ =>
          match attrs.get? "__getattr__" with
          | some f => return some (← d.call f [.text name] [])
          | none => return none
    | .function f =>
      match ← functionMember? ref f name with
      | some found => return some found
      | none => inherited d v name
    | .method self f =>
      match name with
      | "__self__" => return some self
      | "__func__" => return some f
      | _ =>
        match f with
        | .object r =>
          match ← object r with
          | .function g => functionMember? r g name
          | _ => return none
        | _ => return none
    | .error c args attrs _ =>
      match ← inheritedAttribute c name with
      | some (.defined _, found) =>
        match attrs.get? name with
        | some own => return some own
        | none => return some (← bind d v c found)
      | other =>
        match name with
        | "__dict__" => return some (← new (.attributesOf ref))
        | _ =>
          match ← errorMember? c args attrs name with
          | some found => return some found
          | none =>
            match other with
            | some (_, found) => return some (← bind d v c found)
            | none => return none
    | .instance c attrs =>
      match name with
      | "__dict__" => return some (← new (.attributesOf ref))
      | _ =>
        let found ← inheritedAttribute c name
        let isProperty ← match found with
          | some (_, .object r) => do
            match ← object r with
            | .wrapped .ofProperty _ => pure true
            | _ => pure false
          | _ => pure false
        match attrs.get? name, isProperty with
        | some own, false => return some own
        | _, _ =>
          match found with
          | some (_, f) => return some (← bind d v c f)
          | none =>
            match name with
            | "__module__" => return some (← moduleOf c)
            | "__doc__" => return some .none
            | _ =>
              match ← definedMethod? v "__getattr__" with
              | some f => return some (← d.call f [v, .text name] [])
              | none => return none
    | .inherited after self =>
      let selfClass ← match self with
        | .cls c => pure c
        | s => classOf s
      let rest := ((← orderOf selfClass).dropWhile (· != after)).tail
      match ← findAlong name rest with
      | some (_, found) =>
        match self with
        | .cls c => return some (← bindToClass c found)
        | _ => return some (← bind d self selfClass found)
      | none => return none
    | _ => inherited d v name
  | "__doc__", _ => return some .none
  | "real", v | "numerator", v =>
    match v.number? with
    | some n => return some (Value.ofNumber n)
    | none => inherited d v name
  | "imag", v =>
    match v.number? with
    | some _ => return some (.int 0)
    | none => inherited d v name
  | _, v => inherited d v name

def missingMember {α : Type} (v : Value) (name : String) : Run α := do
  match v with
  | .cls c =>
    raise "AttributeError" ("type object '" ++ (← nameOf c) ++ "' has no attribute '" ++ name ++ "'")
  | .object ref =>
    match ← object ref with
    | .module attrs =>
      match attrs.get? "__name__" with
      | some (.text m) =>
        raise "AttributeError" ("module '" ++ m ++ "' has no attribute '" ++ name ++ "'")
      | _ => raise "AttributeError" ("module has no attribute '" ++ name ++ "'")
    | .method _ f =>
      match f with
      | .routine _ => noAttribute v name
      | f => noAttribute f name
    | _ => noAttribute v name
  | .aliasOf (.cls c) _ =>
    raise "AttributeError" ("type object '" ++ (← nameOf c) ++ "' has no attribute '" ++ name ++ "'")
  | .form f => raise "AttributeError" ("'" ++ (← kindOf (.form f)) ++ "' object has no attribute '"
      ++ name ++ "'")
  | v => noAttribute v name

def getMember (d : Deeper) (v : Value) (name : String) : Run Value := do
  match ← member? d v name with
  | some found => return found
  | none => missingMember v name

/-- What stands under a name, where an error about its absence counts as absence. -/
def lookMember (d : Deeper) (v : Value) (name : String) : Run (Option Value) :=
  handling (member? d v name) fun error => do
    match ← object error with
    | .error c _ _ _ =>
      if ← derives c (.builtin "AttributeError") then return none else throw (.raised error false)
    | _ => throw (.raised error false)

def setMember (d : Deeper) (v : Value) (name : String) (value : Value) : Run Unit := do
  match v with
  | .cls (.defined ref) =>
    match name, value with
    | "__name__", .text n =>
      match ← object ref with
      | .cls c => modifyHeap ref (.cls { c with name := n })
      | _ => pure ()
    | "__qualname__", .text n =>
      match ← object ref with
      | .cls c => modifyHeap ref (.cls { c with path := n })
      | _ => pure ()
    | _, _ => putAttribute ref name value
  | .cls c =>
    typeError ("cannot set '" ++ name ++ "' attribute of immutable type '" ++ (← nameOf c) ++ "'")
  | .object ref =>
    match ← object ref with
    | .module _ => putAttribute ref name value
    | .function f =>
      match name, value with
      | "__name__", .text n => modifyHeap ref (.function { f with name := n })
      | "__qualname__", .text n => modifyHeap ref (.function { f with path := n })
      | _, _ => putAttribute ref name value
    | .error c args attrs t =>
      match name, value with
      | "args", .tuple items => modifyHeap ref (.error c items attrs t)
      | _, _ => modifyHeap ref (.error c args (attrs.set name value) t)
    | .instance (.library "builtins.object") _ =>
      raise "AttributeError" ("'object' object has no attribute '" ++ name ++ "'")
    | .instance c _ =>
      match ← definedMethod? v "__setattr__" with
      | some f =>
        let _ ← d.call f [v, .text name, value] []
      | none =>
        match ← inheritedAttribute c name with
        | some (_, .object r) =>
          match ← object r with
          | .wrapped .ofProperty _ =>
            raise "AttributeError" ("property '" ++ name ++ "' of '" ++ (← nameOf c)
              ++ "' object has no setter")
          | _ => putAttribute ref name value
        | _ => putAttribute ref name value
    | _ => noAttribute v name
  | v =>
    if (← inherited d v name).isSome then
      raise "AttributeError" ("'" ++ (← kindOf v) ++ "' object attribute '" ++ name
        ++ "' is read-only")
    else noAttribute v name

def deleteMember (v : Value) (name : String) : Run Unit := do
  let target ← match v with
    | .cls (.defined ref) => pure (some ref)
    | .object ref => pure (some ref)
    | _ => pure none
  match target with
  | none => noAttribute v name
  | some ref =>
    let has ← match ← object ref with
      | .module attrs | .instance _ attrs | .error _ _ attrs _ => pure (attrs.has name)
      | .cls c => pure (c.attributes.has name)
      | .function f => pure (f.attributes.has name)
      | _ => pure false
    if has then dropAttribute ref name else missingMember v name

end Stencil.Script.Run
