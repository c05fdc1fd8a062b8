/-!
Shortest decimal digits. A binary number stands for every real that rounds to it. Of the decimals
inside that interval the text of the number is the one with the fewest digits, and of those the
nearest to the number; an exact tie goes to the even last digit.
-/

namespace Stencil.Decimal

/-- A positive number `mantissa * 2 ^ exponent` and the interval of reals that round to it. -/
structure Binary where
  mantissa : Nat
  exponent : Int
  /-- The gap below is half the gap above, as it is at a power of two. -/
  narrowBelow : Bool
  deriving DecidableEq, Repr

inductive Reading where
  | notANumber
  | infinite (negative : Bool)
  | zero (negative : Bool)
  | finite (negative : Bool) (magnitude : Binary)
  deriving DecidableEq, Repr

structure Digits where
  coefficient : Nat
  exponent : Int
  deriving DecidableEq, Repr

def Reading.ofBits (bits : Nat) : Reading :=
  let negative := bits / Nat.pow 2 63 % 2 == 1
  let field : Nat := bits / Nat.pow 2 52 % 2048
  let fraction : Nat := bits % Nat.pow 2 52
  if field == 2047 then
    if fraction == 0 then .infinite negative else .notANumber
  else if field == 0 then
    if fraction == 0 then .zero negative else .finite negative ⟨fraction, -1074, false⟩
  else
    .finite negative ⟨fraction + Nat.pow 2 52, (field : Int) - 1075, fraction == 0 && field != 1⟩

def Reading.ofFloat (x : Float) : Reading :=
  .ofBits x.toBits.toNat

structure Interval where
  low : Nat
  value : Nat
  high : Nat
  denominator : Nat
  /-- Both ends round to the number too. -/
  closed : Bool

def Binary.interval (b : Binary) : Interval :=
  let unit := Nat.pow 2 b.exponent.toNat
  let below := if b.narrowBelow then 1 else 2
  { low := (4 * b.mantissa - below) * unit
    value := 4 * b.mantissa * unit
    high := (4 * b.mantissa + 2) * unit
    denominator := 4 * Nat.pow 2 (-b.exponent).toNat
    closed := b.mantissa % 2 == 0 }

def Interval.holds (i : Interval) (d : Digits) : Bool :=
  let scale := Nat.pow 10 (-d.exponent).toNat
  let x := d.coefficient * Nat.pow 10 d.exponent.toNat * i.denominator
  if i.closed then i.low * scale ≤ x && x ≤ i.high * scale
  else i.low * scale < x && x < i.high * scale

/-- Twice the distance from the value to the decimal, over the common denominator. -/
def Interval.distance (i : Interval) (d : Digits) : Nat :=
  let scale := Nat.pow 10 (-d.exponent).toNat
  let x := d.coefficient * Nat.pow 10 d.exponent.toNat * i.denominator
  let v := i.value * scale
  if x ≤ v then v - x else x - v

def leadingZeros (value denominator : Nat) : Nat → Nat
  | 0 => 0
  | fuel + 1 => if denominator ≤ value then 0 else leadingZeros (value * 10) denominator fuel + 1

def Interval.scale (i : Interval) : Int :=
  if i.denominator ≤ i.value then
    ((toString (i.value / i.denominator)).length : Int) - 1
  else -(leadingZeros i.value i.denominator 400 : Int)

def Interval.neighbours (i : Interval) (exponent : Int) : Digits × Digits :=
  let c := i.value * Nat.pow 10 (-exponent).toNat / (i.denominator * Nat.pow 10 exponent.toNat)
  (⟨c, exponent⟩, ⟨c + 1, exponent⟩)

/-- The nearer of two decimals, and at an exact tie the one with the even coefficient. -/
def Interval.nearer (i : Interval) (a b : Digits) : Digits :=
  if i.distance a < i.distance b then a
  else if i.distance b < i.distance a then b
  else if a.coefficient % 2 == 0 then a else b

def Interval.onGrid? (i : Interval) (exponent : Int) : Option Digits :=
  let (a, b) := i.neighbours exponent
  match i.holds a, i.holds b with
  | true, true => some (i.nearer a b)
  | true, false => some a
  | false, true => some b
  | false, false => none

def Digits.trim (d : Digits) : Nat → Digits
  | 0 => d
  | fuel + 1 =>
    if d.coefficient != 0 && d.coefficient % 10 == 0 then
      Digits.trim ⟨d.coefficient / 10, d.exponent + 1⟩ fuel
    else d

def Binary.shortest (b : Binary) : Digits :=
  let i := b.interval
  let top := i.scale
  let found := (List.range 17).findSome? fun (n : Nat) => i.onGrid? (top - (n : Int))
  (found.getD (i.neighbours (top - 16)).1).trim 20

end Stencil.Decimal
