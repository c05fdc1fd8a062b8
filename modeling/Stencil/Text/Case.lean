/-!
Upper and lower case beyond ASCII: the Latin, Greek and Cyrillic letters that come in pairs. In most
blocks a pair lies a fixed distance apart, in the extended Latin ones the two are neighbours.
-/

namespace Stencil.Text

/-- Blocks whose upper letters lie at a fixed distance below the lower ones: first and last upper
letter, and the distance. -/
def shiftedCases : List (Nat × Nat × Nat) :=
  [(0x41, 0x5A, 0x20), (0xC0, 0xD6, 0x20), (0xD8, 0xDE, 0x20), (0x391, 0x3A1, 0x20),
   (0x3A3, 0x3AB, 0x20), (0x410, 0x42F, 0x20), (0x400, 0x40F, 0x50)]

/-- Blocks of neighbours: first and last code, and the remainder by two of the upper letters. -/
def neighbouringCases : List (Nat × Nat × Nat) :=
  [(0x100, 0x12F, 0), (0x132, 0x137, 0), (0x139, 0x148, 1), (0x14A, 0x177, 0), (0x179, 0x17E, 1),
   (0x460, 0x481, 0), (0x48A, 0x4BF, 0), (0x4D0, 0x52F, 0)]

def upperChar (c : Char) : List Char :=
  let n := c.toNat
  if n = 0xDF then ['S', 'S']
  else if n = 0xFF then [Char.ofNat 0x178]
  else if n = 0x3C2 then [Char.ofNat 0x3A3]
  else
    match shiftedCases.find? fun (lo, hi, d) => lo + d ≤ n ∧ n ≤ hi + d with
    | some (_, _, d) => [Char.ofNat (n - d)]
    | none =>
      match neighbouringCases.find? fun (lo, hi, _) => lo ≤ n ∧ n ≤ hi with
      | some (_, _, r) => if n % 2 = r then [c] else [Char.ofNat (n - 1)]
      | none => [c]

def lowerChar (c : Char) : Char :=
  let n := c.toNat
  if n = 0x178 then Char.ofNat 0xFF
  else
    match shiftedCases.find? fun (lo, hi, _) => lo ≤ n ∧ n ≤ hi with
    | some (_, _, d) => Char.ofNat (n + d)
    | none =>
      match neighbouringCases.find? fun (lo, hi, _) => lo ≤ n ∧ n ≤ hi with
      | some (_, _, r) => if n % 2 = r then Char.ofNat (n + 1) else c
      | none => c

def upper (s : String) : String := String.ofList (s.toList.flatMap upperChar)

def lower (s : String) : String := String.ofList (s.toList.map lowerChar)

def isUpperChar (c : Char) : Bool := lowerChar c != c

def isLowerChar (c : Char) : Bool := upperChar c != [c]

end Stencil.Text
