import Stencil.Text.Lines

/-!
Columns. A position is reported as a byte offset into the UTF-8 form of its line; the column is the
number of whole characters before that offset.
-/

namespace Stencil.Text

def utf8Length (s : List Char) : Nat :=
  s.foldr (fun c n => c.utf8Size + n) 0

@[simp] theorem utf8Length_nil : utf8Length [] = 0 := rfl

@[simp] theorem utf8Length_cons (c : Char) (s : List Char) :
    utf8Length (c :: s) = c.utf8Size + utf8Length s := rfl

def wholeChars : List Char → Nat → Nat
  | [], _ => 0
  | c :: rest, bytes => if c.utf8Size ≤ bytes then wholeChars rest (bytes - c.utf8Size) + 1 else 0

/-- The column of a byte offset; an offset on a line that the source lacks stays as it is. -/
def charColumn (source : String) (line byteOffset : Nat) : Nat :=
  match (sourceLines source)[line]? with
  | none => byteOffset
  | some text => wholeChars text byteOffset

end Stencil.Text
