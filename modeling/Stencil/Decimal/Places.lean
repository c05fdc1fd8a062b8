import Stencil.Decimal.Layout

/-!
Decimals with as many places behind the point, or as many digits, as are asked for. The last digit is
rounded to the nearest, a half to the even one.
-/

namespace Stencil.Decimal

def roundedQuotient (n d : Nat) : Nat :=
  let q := n / d
  let r := n % d
  if 2 * r < d then q else if d < 2 * r then q + 1 else if q % 2 = 0 then q else q + 1

/-- A decimal number by its digits, without the point, and the power of ten of the first of them. -/
structure Leading where
  coefficient : Nat
  top : Int
  deriving DecidableEq, Repr

def Binary.leading (count : Nat) (b : Binary) : Leading :=
  let top := b.interval.scale
  let shift := (count : Int) - 1 - top
  let n := b.mantissa * Nat.pow 2 b.exponent.toNat * Nat.pow 10 shift.toNat
  let c := roundedQuotient n (Nat.pow 2 (-b.exponent).toNat * Nat.pow 10 (-shift).toNat)
  -- nines that are rounded up make one more digit
  if c = Nat.pow 10 count then ⟨Nat.pow 10 (count - 1), top + 1⟩ else ⟨c, top⟩

def Binary.inPlaces (places : Nat) (b : Binary) : Nat :=
  roundedQuotient (b.mantissa * Nat.pow 10 places * Nat.pow 2 b.exponent.toNat)
    (Nat.pow 2 (-b.exponent).toNat)

/-- Digits with the point before the last ones; a point at the end is left out, unless it is kept. -/
def pointed (places : Nat) (point : Bool) (coefficient : Nat) : List Char :=
  let digits := (toString coefficient).toList
  let digits := List.replicate (places + 1 - digits.length) '0' ++ digits
  let whole := digits.take (digits.length - places)
  if places = 0 && !point then whole else whole ++ '.' :: digits.drop (digits.length - places)

def fixedText (places : Nat) (point : Bool) (coefficient : Nat) : String :=
  String.ofList (pointed places point coefficient)

def scientificText (places : Nat) (point : Bool) (l : Leading) : String :=
  String.ofList (pointed places point l.coefficient) ++ Layout.display.exponentText l.top

/-- Leaves out the zeros at the end of a fraction, and a point that nothing follows. -/
def tidied (s : List Char) : List Char :=
  let kept := (s.reverse.dropWhile (· == '0')).reverse
  if kept.getLast? == some '.' then kept.dropLast else kept

/-- A number by its digits, with an exponent if it is small or has more digits before the point than
are shown. Zeros at the end are left out, unless the point is kept. -/
def generalText (digits : Nat) (point : Bool) (l : Leading) : String :=
  let shown := fun (places : Nat) =>
    let cs := pointed places true l.coefficient
    String.ofList (if point then cs else tidied cs)
  if l.top < -4 || (digits : Int) ≤ l.top then
    shown (digits - 1) ++ Layout.display.exponentText l.top
  else shown ((digits : Int) - 1 - l.top).toNat

end Stencil.Decimal
