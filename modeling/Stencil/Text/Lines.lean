/-!
Lines of text in two readings. Source lines end at a line feed, a carriage return or the pair of
them, and the text after the last end is a line too. Wide lines end at every character that breaks
a line on some screen, and an end at the end of the text opens no further line.
-/

namespace Stencil.Text

def unifyEnds : List Char → List Char
  | [] => []
  | '\r' :: '\n' :: rest => '\n' :: unifyEnds rest
  | '\r' :: rest => '\n' :: unifyEnds rest
  | c :: rest => c :: unifyEnds rest

def splitAt (separator : Char) : List Char → List (List Char)
  | [] => [[]]
  | c :: rest =>
    if c = separator then [] :: splitAt separator rest
    else
      match splitAt separator rest with
      | [] => [[c]]
      | line :: lines => (c :: line) :: lines

def pieces (separator : Char) (text : String) : List String :=
  (splitAt separator text.toList).map String.ofList

def sourceLines (source : String) : List (List Char) :=
  splitAt '\n' (unifyEnds source.toList)

def isWideBreak (c : Char) : Bool :=
  let n := c.toNat
  (0x0A ≤ n && n ≤ 0x0D) || (0x1C ≤ n && n ≤ 0x1E) || n == 0x85 || n == 0x2028 || n == 0x2029

def cutWide : List Char → List Char → List (List Char)
  | [], [] => []
  | line, [] => [line.reverse]
  | line, '\r' :: '\n' :: rest => line.reverse :: cutWide [] rest
  | line, c :: rest =>
    if isWideBreak c then line.reverse :: cutWide [] rest else cutWide (c :: line) rest

def wideLines (text : String) : List (List Char) :=
  cutWide [] text.toList

end Stencil.Text
