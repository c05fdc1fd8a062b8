import Stencil.Vocabulary

/-!
References: the forms in which a dependency can be handed over. Modules and streams are told apart as
objects, paths and bytes by what they say. Lists of references are merged without duplicates, each
reference staying where it appears first.
-/

namespace Stencil

inductive Reference where
  /-- A module, by its place on the heap. -/
  | module (object : Nat)
  | file (path : String)
  | stream (key : String)
  | bytes (data : List UInt8)
  deriving DecidableEq, Repr

namespace Reference

def kind : Reference → ReferenceKind
  | module _ => .module
  | file _ => .file
  | stream _ => .stream
  | bytes _ => .bytes

inductive Unsupported where
  | streams
  | buffers
  deriving DecidableEq, Repr

def Unsupported.message : Unsupported → String
  | streams => "Stream references are not supported"
  | buffers => "Byte buffer references are not supported"

def addNew : List Reference → List Reference → List Reference
  | kept, [] => kept
  | kept, r :: rest => if r ∈ kept then addNew kept rest else addNew (kept ++ [r]) rest

/-- The references that are always there, then a context's own, without duplicates. -/
def merge (included own : List Reference) : List Reference := addNew [] (included ++ own)

end Reference

end Stencil
