import Stencil.Dependency

/-!
Supplies: what a caller hands over where a reference is wanted. Modules, paths, bytes and streams
become references of the matching form; a reference stays what it is, and anything else is refused.
-/

namespace Stencil

inductive Supply where
  | ready (reference : Reference)
  | dependency (dependency : Dependency)
  | module (object : Nat)
  /-- A path as an object of its own; its text is in normal form. -/
  | path (text : String)
  /-- Bytes, in a buffer of the given kind. -/
  | buffer (kind : String) (data : List UInt8)
  | stream (key : String)
  | value (datum : Datum)
  deriving Inhabited

namespace Supply

inductive Refusal where
  | noReference (kind : String)
  | unknown (shown : String)
  | unsupported (form : Reference.Unsupported)
  deriving DecidableEq, Repr

def Refusal.message : Refusal → String
  | noReference kind => "Cannot build a compiler reference from " ++ kind
  | unknown shown => "Unknown reference descriptor: " ++ shown
  | unsupported form => form.message

def reference : Supply → Except Refusal Reference
  | ready r => .ok r
  | module object => .ok (.module object)
  | path text => .ok (.file (Path.normal text))
  | buffer _ data => .ok (.bytes data)
  | stream key => .ok (.stream key)
  | value (.text s) => .ok (.file s)
  | value (.bytes bs) => .ok (.bytes bs)
  | value d => .error (.noReference d.kind)
  | dependency _ => .error (.noReference "MetadataReference")

def shownModule (m : Script.Machine) : Option Nat → String
  | some object => Script.Run.moduleText (m.attributes object)
  | none => "None"

def shownText : Option String → String
  | some s => Text.quoted s
  | none => "None"

def shown (m : Script.Machine) : Supply → String
  | ready _ => ""
  | dependency d =>
    "MetadataReference(name=" ++ shownText d.name ++ ", location=" ++ shownText d.location
      ++ ", module=" ++ shownModule m d.module ++ ")"
  | module object => shownModule m (some object)
  | path text => "PurePosixPath(" ++ Text.quoted (Path.normal text) ++ ")"
  | buffer kind data =>
    if kind == "bytes" then Text.quotedBytes data else kind ++ "(" ++ Text.quotedBytes data ++ ")"
  | stream _ => "<_io.BytesIO object>"
  | value d => d.quoted

def resolve (m : Script.Machine) : Supply → Except Refusal Dependency
  | ready r => (Dependency.resolve m r).mapError .unsupported
  | s => .error (.unknown (s.shown m))

def toDependency (m : Script.Machine) : Supply → Except Refusal Dependency
  | dependency d => .ok d
  | s => do (Dependency.resolve m (← s.reference)).mapError .unsupported

end Supply

end Stencil
