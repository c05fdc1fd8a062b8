import Stencil.Decimal.Layout

/-!
Numbers: integers of any size and doubles. An operation on two integers stays exact; with a double
on either side both become doubles. Comparison never rounds.
-/

namespace Stencil

inductive Number where
  | int (value : Int)
  | float (value : Float)

inductive ArithmeticError where
  | divisionByZero
  | integerDivisionByZero
  | integerModuloByZero
  | floatDivisionByZero
  | floatFloorByZero
  | floatModuloByZero
  | zeroToNegativePower
  | integerTooLarge
  | quotientTooLarge
  | resultTooLarge
  deriving DecidableEq, Repr

namespace ArithmeticError

def kind : ArithmeticError → String
  | integerTooLarge | quotientTooLarge | resultTooLarge => "OverflowError"
  | _ => "ZeroDivisionError"

def message : ArithmeticError → String
  | divisionByZero => "division by zero"
  | integerDivisionByZero => "integer division or modulo by zero"
  | integerModuloByZero => "integer modulo by zero"
  | floatDivisionByZero => "float division by zero"
  | floatFloorByZero => "float floor division by zero"
  | floatModuloByZero => "float modulo"
  | zeroToNegativePower => "0.0 cannot be raised to a negative power"
  | integerTooLarge => "int too large to convert to float"
  | quotientTooLarge => "integer division result too large for a float"
  | resultTooLarge => "(34, 'Numerical result out of range')"

end ArithmeticError

namespace Number

open Decimal

abbrev Result := Except ArithmeticError

def floatOfInt (i : Int) : Result Float :=
  let x := Float.ofInt i
  if x.isInf then .error .integerTooLarge else .ok x

def toFloat : Number → Result Float
  | int i => floatOfInt i
  | float x => .ok x

def lift (onInt : Int → Int → Result Number) (onFloat : Float → Float → Result Number) :
    Number → Number → Result Number
  | int a, int b => onInt a b
  | a, b => do
    let x ← a.toFloat
    let y ← b.toFloat
    onFloat x y

def add : Number → Number → Result Number :=
  lift (fun a b => .ok (int (a + b))) fun x y => .ok (float (x + y))

def sub : Number → Number → Result Number :=
  lift (fun a b => .ok (int (a - b))) fun x y => .ok (float (x - y))

def mul : Number → Number → Result Number :=
  lift (fun a b => .ok (int (a * b))) fun x y => .ok (float (x * y))

def neg : Number → Number
  | int i => int (-i)
  | float x => float (-x)

/-- The quotient of two integers as a double, from enough bits of it and one bit for the rest. -/
def quotient (a b : Int) : Result Float :=
  let n := a.natAbs
  let d := b.natAbs
  let shift : Int := 70 + (d.log2 : Int) - (n.log2 : Int)
  let scaled := n * Nat.pow 2 shift.toNat
  let divisor := d * Nat.pow 2 (-shift).toNat
  let q := scaled / divisor
  let rest := if scaled % divisor == 0 then 0 else 1
  let x := (Float.ofNat (2 * q + rest)).scaleB (-(shift + 1))
  if x.isInf then .error .quotientTooLarge
  else .ok (if (a < 0) == (b < 0) then x else -x)

def divide : Number → Number → Result Number :=
  lift
    (fun a b =>
      if b = 0 then .error .divisionByZero
      else if a = 0 then .ok (float 0.0)
      else (quotient a b).map float)
    fun x y => if y == 0.0 then .error .floatDivisionByZero else .ok (float (x / y))

def scaledInt : Reading → Option (Int × Int)
  | .zero _ => some (0, 0)
  | .finite negative b => some (if negative then -(b.mantissa : Int) else b.mantissa, b.exponent)
  | _ => none

def common (x y : Float) : Option (Int × Int × Int) := do
  let (a, e) ← scaledInt (.ofFloat x)
  let (b, f) ← scaledInt (.ofFloat y)
  let g := min e f
  some (a * Int.pow 2 (e - g).toNat, b * Int.pow 2 (f - g).toNat, g)

def floatMod (x y : Float) : Float :=
  match common x y with
  | some (a, b, g) =>
    let r := Int.fmod a b
    if r = 0 then (if y < 0.0 then -0.0 else 0.0) else (Float.ofInt r).scaleB g
  | none =>
    if x.isNaN || y.isNaN || x.isInf then 0.0 / 0.0
    else if x == 0.0 then (if y < 0.0 then -0.0 else 0.0)
    else if (x < 0.0) == (y < 0.0) then x else y

def floatFloor (x y : Float) : Float :=
  match common x y with
  | some (a, b, _) =>
    let q := Int.fdiv a b
    if q = 0 then (if (x < 0.0) == (y < 0.0) then 0.0 else -0.0) else Float.ofInt q
  | none =>
    if x.isNaN || y.isNaN || x.isInf then 0.0 / 0.0
    else if x == 0.0 || (x < 0.0) == (y < 0.0) then 0.0 else -1.0

def floorDiv : Number → Number → Result Number :=
  lift
    (fun a b => if b = 0 then .error .integerDivisionByZero else .ok (int (Int.fdiv a b)))
    fun x y => if y == 0.0 then .error .floatFloorByZero else .ok (float (floatFloor x y))

def mod : Number → Number → Result Number :=
  lift
    (fun a b => if b = 0 then .error .integerModuloByZero else .ok (int (Int.fmod a b)))
    fun x y => if y == 0.0 then .error .floatModuloByZero else .ok (float (floatMod x y))

private def floatPow (x y : Float) : Result Number :=
  if x == 0.0 && y < 0.0 then .error .zeroToNegativePower
  else
    let r := x.pow y
    if r.isInf && !x.isInf && !y.isInf then .error .resultTooLarge else .ok (float r)

def pow : Number → Number → Result Number :=
  lift
    (fun a b =>
      if 0 ≤ b then .ok (int (Int.pow a b.toNat))
      else do
        let x ← floatOfInt a
        let y ← floatOfInt b
        floatPow x y)
    floatPow

def compareReading (r : Reading) (i : Int) : Option Ordering :=
  match r with
  | .notANumber => none
  | .infinite negative => some (if negative then .lt else .gt)
  | .zero _ => some (compare 0 i)
  | .finite negative b =>
    let m : Int := if negative then -(b.mantissa : Int) else b.mantissa
    some (compare (m * Int.pow 2 b.exponent.toNat) (i * Int.pow 2 (-b.exponent).toNat))

def compare? : Number → Number → Option Ordering
  | int a, int b => some (compare a b)
  | float x, int b => compareReading (.ofFloat x) b
  | int a, float y => (compareReading (.ofFloat y) a).map Ordering.swap
  | float x, float y =>
    if x < y then some .lt else if y < x then some .gt else if x == y then some .eq else none

def eq (a b : Number) : Bool := compare? a b == some .eq

def lt (a b : Number) : Bool := compare? a b == some .lt

def text : Number → String
  | int i => toString i
  | float x => Layout.display.text x

end Number

end Stencil
