/-!
Hexadecimal digits: numbers by a fixed count of digits, and runs of bytes by two digits each.
-/

namespace Stencil.Text

private def hexDigit (n : Nat) : Char :=
  if n < 10 then Char.ofNat ('0'.toNat + n) else Char.ofNat ('a'.toNat + (n - 10))

def hex : Nat → Nat → List Char
  | 0, _ => []
  | width + 1, n => hex width (n / 16) ++ [hexDigit (n % 16)]

def isHexDigit (c : Char) : Bool := c.isDigit || ('a' ≤ c && c ≤ 'f')

def hexValue (c : Char) : Nat :=
  if c.isDigit then c.toNat - '0'.toNat else c.toNat - 'a'.toNat + 10

def bytesOfHex : List Char → List UInt8
  | a :: b :: rest => UInt8.ofNat (hexValue a * 16 + hexValue b) :: bytesOfHex rest
  | _ => []

def hexOfBytes (bs : List UInt8) : String := String.ofList (bs.flatMap fun b => hex 2 b.toNat)

end Stencil.Text
