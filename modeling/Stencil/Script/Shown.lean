import Stencil.Datum
import Stencil.Script.Class

/-!
Texts of values. The quoted text of a container is made of the quoted texts of its items, and source
can say how instances of its classes are shown; both go one call deeper.
-/

namespace Stencil.Script

structure Deeper where
  call : Value → List Value → List (String × Value) → Run Value
  quoted : Value → Run String
  same : Value → Value → Run Bool

namespace Run

def textResult (name : String) (v : Value) : Run String := do
  match v with
  | .text s => return s
  | v => typeError (name ++ " returned non-string (type " ++ (← kindOf v) ++ ")")

def fullName (c : ClassRef) : Run String := do
  let path ← pathOf c
  match ← moduleOf c with
  | .text "builtins" => return path
  | .text m => return m ++ "." ++ path
  | _ => return path

def moduleText (attrs : Bindings Value) : String :=
  let name := match attrs.get? "__name__" with
    | some (.text n) => Text.quoted n
    | _ => "'?'"
  match attrs.get? "__file__" with
  | some (.text file) => "<module " ++ name ++ " from " ++ Text.quoted file ++ ">"
  | some (.none) | none => "<module " ++ name ++ ">"
  | some _ => "<module " ++ name ++ ">"

def placeText (ref : Nat) : String :=
  "0x7f" ++ String.ofList (Text.hex 10 (ref * 16))

def typeText (d : Deeper) (v : Value) : Run String := do
  match v with
  | .cls c => fullName c
  | .ellipsis => return "..."
  | v => d.quoted v

def typeTexts (d : Deeper) : List Value → Run (List String)
  | [] => return []
  | v :: vs => return (← typeText d v) :: (← typeTexts d vs)

def quotedAll (d : Deeper) : List Value → Run (List String)
  | [] => return []
  | v :: vs => return (← d.quoted v) :: (← quotedAll d vs)

def quotedPairs (d : Deeper) : List (Value × Value) → Run (List (String × String))
  | [] => return []
  | (k, v) :: rest => return (← d.quoted k, ← d.quoted v) :: (← quotedPairs d rest)

def argumentsText (parts : List String) : String := "(" ++ ", ".intercalate parts ++ ")"

def entriesOf (o : Object) : Run (List (Value × Value)) := do
  match o with
  | .dict entries => return entries
  | .attributesOf ref =>
    match ← object ref with
    | .module attrs | .instance _ attrs | .error _ _ attrs _ | .scope _ attrs =>
      return attrs.entries.map fun (k, v) => (.text k, v)
    | .cls c => return c.attributes.entries.map fun (k, v) => (.text k, v)
    | .function f => return f.attributes.entries.map fun (k, v) => (.text k, v)
    | _ => return []
  | _ => return []

def quotedObject (d : Deeper) (ref : Nat) : Run String := do
  let o ← object ref
  match o with
  | .list items => return Datum.listText (← quotedAll d items)
  | .dict _ | .attributesOf _ => return Datum.tableText (← quotedPairs d (← entriesOf o))
  | .set frozen items =>
    let inner ← quotedAll d items
    let braces := "\x7b" ++ ", ".intercalate inner ++ "\x7d"
    if frozen then
      return if items.isEmpty then "frozenset()" else "frozenset(" ++ braces ++ ")"
    else return if items.isEmpty then "set()" else braces
  | .module attrs => return moduleText attrs
  | .cls _ => return "<class>"
  | .function f => return "<function " ++ f.path ++ " at " ++ placeText ref ++ ">"
  | .method self f =>
    let path ← match f with
      | .object r => do
        match ← object r with
        | .function g => pure g.path
        | _ => pure "?"
      | _ => pure "?"
    return "<bound method " ++ path ++ " of " ++ (← d.quoted self) ++ ">"
  | .wrapped .ofStatic _ => return "<staticmethod object at " ++ placeText ref ++ ">"
  | .wrapped .ofClass _ => return "<classmethod object at " ++ placeText ref ++ ">"
  | .wrapped .ofProperty _ => return "<property object at " ++ placeText ref ++ ">"
  | .iterator kind _ => return "<" ++ kind ++ " object at " ++ placeText ref ++ ">"
  | .scope _ _ => return "<scope>"
  | .inherited _ _ => return "<super object>"
  | .foreign _ shown => return shown
  | .instance c _ =>
    match ← definedMethod? (.object ref) "__repr__" with
    | some f => textResult "__repr__" (← d.call f [.object ref] [])
    | none => return "<" ++ (← fullName c) ++ " object at " ++ placeText ref ++ ">"
  | .error c args _ _ =>
    match ← definedMethod? (.object ref) "__repr__" with
    | some f => textResult "__repr__" (← d.call f [.object ref] [])
    | none => return (← nameOf c) ++ argumentsText (← quotedAll d args)

def quotedStep (d : Deeper) (v : Value) : Run String := do
  match v with
  | .none => return "None"
  | .ellipsis => return "Ellipsis"
  | .notImplemented => return "NotImplemented"
  | .bool b => return if b then "True" else "False"
  | .int i => return toString i
  | .float x => return Decimal.Layout.display.text x
  | .text s => return Text.quoted s
  | .bytes bs => return Text.quotedBytes bs
  | .tuple items => return Datum.tupleText (← quotedAll d items)
  | .range a b c =>
    let step := if c = 1 then "" else ", " ++ toString c
    return "range(" ++ toString a ++ ", " ++ toString b ++ step ++ ")"
  | .slice a b c => return "slice" ++ argumentsText (← quotedAll d [a, b, c])
  | .cls c => return "<class '" ++ (← fullName c) ++ "'>"
  | .routine name =>
    let short := (Library.split name).2
    if (← kindOf v) == "function" then return "<function " ++ short ++ " at 0x7f0000000000>"
    else return "<built-in function " ++ short ++ ">"
  | .bound self name =>
    return "<built-in method " ++ (Library.split name).2 ++ " of " ++ (← kindOf self)
      ++ " object at 0x7f0000000000>"
  | .form name =>
    if name == "TModel" || name == "AnyStr" then return "~" ++ name
    else return "typing." ++ name
  | .aliasOf (.form "|") members => return " | ".intercalate (← typeTexts d members)
  | .aliasOf (.form "Optional") members =>
    return "typing.Optional[" ++ ", ".intercalate (← typeTexts d members) ++ "]"
  | .aliasOf (.form name) members =>
    return "typing." ++ name ++ "[" ++ ", ".intercalate (← typeTexts d members) ++ "]"
  | .aliasOf origin members =>
    return (← typeText d origin) ++ "[" ++ ", ".intercalate (← typeTexts d members) ++ "]"
  | .object ref => quotedObject d ref

/-- The text of an error: nothing without arguments, its argument, or all of them as a tuple. -/
def errorText (d : Deeper) (c : ClassRef) (arguments : List Value) (plain : Value → Run String) :
    Run String := do
  match arguments with
  | [] => return ""
  | [v] => if ← derives c (.builtin "KeyError") then d.quoted v else plain v
  | code :: reason :: rest =>
    if rest.length ≤ 3 && (← derives c (.builtin "OSError")) then
      let start := "[Errno " ++ (← plain code) ++ "] " ++ (← plain reason)
      match rest with
      | [] | .none :: _ => return start
      | [file] | [file, _] => return start ++ ": " ++ (← d.quoted file)
      | file :: _ :: other :: _ =>
        return start ++ ": " ++ (← d.quoted file) ++ " -> " ++ (← d.quoted other)
    else d.quoted (.tuple arguments)

def plainError (d : Deeper) (c : ClassRef) (args : List Value) (attrs : Bindings Value) :
    Run String := do
  let inner := fun (v : Value) => match v with
    | .text s => pure s
    | v => d.call (.cls (.builtin "str")) [v] [] >>= textResult "__str__"
  let text ← errorText d c args inner
  -- a fault in source names the file and the line that it is in
  match attrs.get? "filename", attrs.get? "lineno" with
  | some (.text file), some (.int line) =>
    return text ++ " (" ++ Path.name file ++ ", line " ++ toString line ++ ")"
  | _, _ => return text

def plainStep (d : Deeper) (v : Value) : Run String := do
  match v with
  | .text s => return s
  | .object ref =>
    match ← object ref with
    | .instance _ _ =>
      match ← definedMethod? v "__str__" with
      | some f => textResult "__str__" (← d.call f [v] [])
      | none => quotedStep d v
    | .error c args attrs _ =>
      match ← definedMethod? v "__str__" with
      | some f => textResult "__str__" (← d.call f [v] [])
      | none => plainError d c args attrs
    | _ => quotedStep d v
  | v => quotedStep d v

end Run

end Stencil.Script
