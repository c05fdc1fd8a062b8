import Stencil.Script.Sequence

/-!
Signatures: how the arguments of a call become the parameters of a function. Arguments by name are
settled first, then those by position that are too many, and last the parameters that got nothing.
-/

namespace Stencil.Script

structure Signature where
  title : String
  /-- The parameters that take arguments by position. -/
  positional : List String
  /-- How many of these do not go by name. -/
  unnamed : Nat := 0
  rest : Option String := none
  keyword : List String := []
  keywords : Option String := none

namespace Signature

def ofParameters (title : String) (ps : List Parameter) : Signature :=
  ps.foldl (fun s p =>
    match p with
    | .parameter _ .positional name _ _ =>
      { s with positional := s.positional ++ [name], unnamed := s.unnamed + 1 }
    | .parameter _ .regular name _ _ => { s with positional := s.positional ++ [name] }
    | .parameter _ .rest name _ _ => { s with rest := some name }
    | .parameter _ .keyword name _ _ => { s with keyword := s.keyword ++ [name] }
    | .parameter _ .keywords name _ _ => { s with keywords := some name }) { title, positional := [] }

def listed (names : List String) : String :=
  let shown := names.map fun n => "'" ++ n ++ "'"
  match shown with
  | [] => ""
  | [a] => a
  | [a, b] => a ++ " and " ++ b
  | _ => ", ".intercalate shown.dropLast ++ ", and " ++ shown.getLast?.getD ""

def missingText (s : Signature) (kind : String) (names : List String) : String :=
  s.title ++ "() missing " ++ toString names.length ++ " required " ++ kind ++ " argument"
    ++ (if names.length = 1 then "" else "s") ++ ": " ++ listed names

def plural (n : Nat) : String := if n = 1 then "" else "s"

def surplusText (s : Signature) (optional given named : Nat) : String :=
  let most := s.positional.length
  let takes :=
    if optional = 0 then toString most ++ " positional argument" ++ plural most
    else "from " ++ toString (most - optional) ++ " to " ++ toString most ++ " positional arguments"
  let were := if given = 1 && named = 0 then "was" else "were"
  let but :=
    if named = 0 then toString given
    else toString given ++ " positional argument" ++ plural given ++ " (and " ++ toString named
      ++ " keyword-only argument" ++ plural named ++ ")"
  s.title ++ "() takes " ++ takes ++ " but " ++ but ++ " " ++ were ++ " given"

def takeNamed (s : Signature) :
    Bindings Value → List (Value × Value) → List (String × Value) →
      Run (Bindings Value × List (Value × Value))
  | taken, extra, [] => return (taken, extra)
  | taken, extra, (name, v) :: rest => do
    if (s.positional.drop s.unnamed ++ s.keyword).contains name then
      if taken.has name then
        Run.typeError (s.title ++ "() got multiple values for argument '" ++ name ++ "'")
      else takeNamed s (taken.set name v) extra rest
    else if s.keywords.isSome then takeNamed s taken (extra ++ [(.text name, v)]) rest
    else if (s.positional.take s.unnamed).contains name then
      Run.typeError (s.title
        ++ "() got some positional-only arguments passed as keyword arguments: '" ++ name ++ "'")
    else
      Run.typeError (s.title ++ "() got an unexpected keyword argument '" ++ name ++ "'")

def bind (s : Signature) (defaults : Bindings Value) (given : List Value)
    (named : List (String × Value)) : Run (Bindings Value) := do
  let start := (s.positional.zip given).foldl (fun b (n, v) => b.set n v) ({} : Bindings Value)
  let (taken, extra) ← takeNamed s start [] named
  let surplus := given.drop s.positional.length
  if !surplus.isEmpty && s.rest.isNone then
    let optional := (s.positional.filter defaults.has).length
    let keywordGiven := (s.keyword.filter taken.has).length
    Run.typeError (s.surplusText optional given.length keywordGiven)
  let absent := fun (names : List String) =>
    names.filter fun n => !taken.has n && !defaults.has n
  match absent s.positional with
  | n :: ns => Run.typeError (s.missingText "positional" (n :: ns))
  | [] => pure ()
  match absent s.keyword with
  | n :: ns => Run.typeError (s.missingText "keyword-only" (n :: ns))
  | [] => pure ()
  let filled := (s.positional ++ s.keyword).foldl (fun b n =>
    match taken.get? n with
    | some v => Bindings.set b n v
    | none =>
      match defaults.get? n with
      | some v => Bindings.set b n v
      | none => b) ({} : Bindings Value)
  let filled := match s.rest with
    | some n => filled.set n (.tuple surplus)
    | none => filled
  match s.keywords with
  | some n => return filled.set n (← Run.new (.dict extra))
  | none => return filled

end Signature

end Stencil.Script
