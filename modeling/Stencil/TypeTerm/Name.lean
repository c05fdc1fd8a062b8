import Stencil.TypeTerm.Build

/-!
Names of types as source text. Builtin classes go by their bare name and all others by module and
name; aliases are named after the class they stand for, and unions are written with bars.
-/

namespace Stencil.TypeTerm

inductive NameError where
  | unnameable (shown : String)
  | nameless (shown : String)
  | noTemplate
  deriving DecidableEq, Repr

def NameError.message : NameError → String
  | unnameable shown => "Cannot name type " ++ shown
  | nameless shown => "Type " ++ shown ++ " has no name"
  | noTemplate => "template_type must not be None"

def ownName : TypeTerm → Except NameError String
  | noneClass => .ok "builtins.NoneType"
  | builtin name => .ok name
  | named m name _ _ => .ok (moduleAndName m name)
  | form name => .ok ("typing." ++ name)
  | free name => .ok ("typing." ++ name)
  | parameters name => .ok ("typing." ++ name)
  | newType m name => .ok (m ++ "." ++ name)
  | t => .error (.nameless t.shown)

mutual

def sourceName : TypeTerm → Except NameError String
  | none => .ok "None"
  | noneClass => .ok "None"
  | ellipsis => .ok "..."
  | builtin name => .ok name
  | named m name _ _ => .ok (moduleAndName m name)
  | form name => .ok ("typing." ++ name)
  | aliasOf _ origin => ownName origin
  | applied _ origin [] => ownName origin
  | applied _ origin (a :: as) => do
    let name ← ownName origin
    let args ← argumentNames (a :: as)
    .ok (name ++ "[" ++ ", ".intercalate args ++ "]")
  | union _ ts => do .ok (" | ".intercalate (← sourceNames ts))
  | literal vs => .ok ("typing.Literal[" ++ ", ".intercalate (vs.map Datum.quoted) ++ "]")
  | free name => .ok name
  | t@(parameters _) => .error (.unnameable t.shown)
  | t@(newType _ _) => .error (.unnameable t.shown)
  | t@(forward _) => .error (.unnameable t.shown)
  | t@(items _) => .error (.unnameable t.shown)
  | t@(value _) => .error (.unnameable t.shown)

def sourceNames : List TypeTerm → Except NameError (List String)
  | [] => .ok []
  | t :: ts => do
    let name ← sourceName t
    .ok (name :: (← sourceNames ts))

def argumentNames : List TypeTerm → Except NameError (List String)
  | [] => .ok []
  | items inner :: ts => do
    let names ← sourceNames inner
    .ok (("[" ++ ", ".intercalate names ++ "]") :: (← argumentNames ts))
  | t :: ts => do
    let name ← sourceName t
    .ok (name :: (← argumentNames ts))

end

def anyName : String := "typing.Any"

def definition : TypeTerm → TypeTerm
  | aliasOf _ origin => origin
  | applied _ origin _ => origin
  | union .named _ => form "Union"
  | union .bar _ => plainClass "types" "UnionType"
  | literal _ => form "Literal"
  | t => t

def isGeneric : TypeTerm → Bool
  | named (some "types") "UnionType" _ _ => true
  | named (some "types") "GenericAlias" _ _ => true
  | named _ _ vs _ => !vs.isEmpty
  | _ => false

/-- The name of a template for a model: a generic template is applied to the model's name. -/
def instanceName (template model : TypeTerm) : Except NameError String :=
  match template with
  | none => .error .noTemplate
  | _ => do
    let base := definition template
    let name ← ownName base
    if base.isGeneric then do
      let argument ← match model with
        | none => .ok anyName
        | m => sourceName m
      .ok (name ++ "[" ++ argument ++ "]")
    else .ok name

end Stencil.TypeTerm
