import Stencil.Emission
import Stencil.Supply
import Stencil.Text.Hex
import Stencil.TypeTerm.Basic

/-!
Contexts: everything that the compilation of one template is given. The namespaces are a set, kept in
order, so that contexts that name the same ones are equal. What stands for the template and its types
is kept for reports only.
-/

namespace Stencil

structure Config where
  /-- The folder in which scratch folders are made, unless the environment or the system say. -/
  root : Option String := none
  /-- What the names of scratch folders begin with. -/
  marker : String := "kiln_"
  /-- The namespaces of contexts that name none. -/
  namespaces : List String := ["kiln.templates"]
  deriving DecidableEq, Repr

def firstFilled : List (Option String) → String → String
  | [], otherwise => otherwise
  | some s :: rest, otherwise => if s == "" then firstFilled rest otherwise else s
  | none :: rest, otherwise => firstFilled rest otherwise

/-- The folder for scratch folders: the configured one, the environment's, or the system's. -/
def Config.folder (c : Config) (environment : Option String) (system : String) : String :=
  firstFilled [c.root, environment] system

def insertName (name : String) : List String → List String
  | [] => [name]
  | other :: rest =>
    if name = other then other :: rest
    else if name < other then name :: other :: rest
    else other :: insertName name rest

def namesInOrder (names : List String) : List String := names.foldr insertName []

structure Context where
  source : String
  className : String
  namespaces : List String := []
  template : Datum := .null
  references : List Reference := []
  templateType : TypeTerm := .none
  modelType : TypeTerm := .none

namespace Context

def stem : String := "Template_"

def nameDigits : Nat := 32

/-- A name that no other context is given: a stem and a number in hexadecimal digits. -/
def generatedName (fresh : Nat) : String := stem ++ String.ofList (Text.hex nameDigits fresh)

def isGenerated (name : String) : Bool :=
  let digits := name.toList.drop stem.length
  name.startsWith stem && digits.length == nameDigits && digits.all Text.isHexDigit

inductive Refusal where
  | reference (refusal : Supply.Refusal)
  | unexpected (name : String)
  | repeated (name : String)
  deriving DecidableEq, Repr

def Refusal.message : Refusal → String
  | reference r => r.message
  | unexpected name =>
    "TypeContext.__init__() got an unexpected keyword argument '" ++ name ++ "'"
  | repeated name =>
    "kiln.compiler.context.create_context() got multiple values for keyword argument '"
      ++ name ++ "'"

def ownNames : List String :=
  ["source_code", "class_name", "namespaces", "references", "config", "template_content",
   "template_type", "model_type"]

structure Request where
  source : String
  className : Option String := none
  namespaces : Option (List String) := none
  references : List Supply := []
  template : Datum := .null
  templateType : TypeTerm := .none
  modelType : TypeTerm := .none
  /-- Names of arguments that a context does not have. -/
  extra : List String := []

def create (config : Config) (fresh : Nat) (r : Request) : Except Refusal Context := do
  match r.extra.find? ownNames.contains with
  | some name => throw (.repeated name)
  | none => pure ()
  let references ← (r.references.mapM Supply.reference).mapError .reference
  match r.extra with
  | name :: _ => throw (.unexpected name)
  | [] =>
    return {
      source := r.source
      className := firstFilled [r.className] (generatedName fresh)
      namespaces := namesInOrder (r.namespaces.getD config.namespaces)
      template := r.template
      references
      templateType := r.templateType
      modelType := r.modelType }

def withSource (c : Context) (source : String) : Context := { c with source }

def same (a b : Context) : Bool :=
  a.source == b.source && a.className == b.className && a.namespaces == b.namespaces
    && a.template.same b.template && a.references == b.references
    && a.templateType.same b.templateType && a.modelType.same b.modelType

/-- The options that a context asks for: its namespaces are gone through in order. -/
def options (c : Context) : Options := { kind := .library, usings := namesInOrder c.namespaces }

end Context

end Stencil
