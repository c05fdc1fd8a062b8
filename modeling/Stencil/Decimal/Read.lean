import Stencil.Decimal.Shortest

/-!
Reading decimal numbers: digits that single underscores may separate, fractions and exponents.
-/

namespace Stencil.Decimal

def digitValue? (c : Char) : Option Nat :=
  if '0' ≤ c ∧ c ≤ '9' then some (c.toNat - '0'.toNat) else none

def natOfDigits (ds : List Nat) : Nat :=
  ds.foldl (fun n d => n * 10 + d) 0

def digits? : List Char → Option (List Nat)
  | [] => some []
  | [c] => (digitValue? c).map ([·])
  | c :: '_' :: d :: rest => do
    let x ← digitValue? c
    let xs ← digits? (d :: rest)
    if xs.isEmpty then none else some (x :: xs)
  | c :: rest => do
    let x ← digitValue? c
    let xs ← digits? rest
    some (x :: xs)

def nat? (s : List Char) : Option Nat :=
  match digits? s with
  | some (d :: ds) => some (natOfDigits (d :: ds))
  | _ => none

/-- The double nearest to `coefficient * 10 ^ exponent`; far out of range it is infinite or zero. -/
def toFloat (coefficient : Nat) (exponent : Int) : Float :=
  let size := ((toString coefficient).length : Int) + exponent
  if coefficient == 0 then 0.0
  else if size > 400 then Float.ofScientific 1 false 400
  else if size < -400 then 0.0
  else Float.ofScientific coefficient (exponent < 0) exponent.natAbs

def cutAt? (p : Char → Bool) (s : List Char) : Option (List Char × List Char) :=
  match s.dropWhile (fun c => !p c) with
  | [] => none
  | _ :: rest => some (s.takeWhile (fun c => !p c), rest)

private def exponent? (s : List Char) : Option Int :=
  match s with
  | '-' :: t => (nat? t).map fun n => -(n : Int)
  | '+' :: t => (nat? t).map fun n => (n : Int)
  | t => (nat? t).map fun n => (n : Int)

def unsigned? (s : List Char) : Option Float := do
  let (body, exponent) ← match cutAt? (fun c => c == 'e' || c == 'E') s with
    | some (body, e) => (exponent? e).map fun e => (body, e)
    | none => some (s, 0)
  let (whole, fraction) := (cutAt? (· == '.') body).getD (body, [])
  let ws ← digits? whole
  let fs ← digits? fraction
  if ws.isEmpty && fs.isEmpty then none
  else some (toFloat (natOfDigits (ws ++ fs)) (exponent - (fs.length : Int)))

/-- A decimal as the display layout writes it, names of numbers without digits included. -/
def float? (s : String) : Option Float :=
  let (negative, body) : Bool × List Char := match s.toList with
    | '-' :: t => (true, t)
    | '+' :: t => (false, t)
    | t => (false, t)
  let magnitude : Option Float :=
    let name := (String.ofList body).toLower
    if name == "nan" then some (0.0 / 0.0)
    else if name == "inf" || name == "infinity" then some (1.0 / 0.0)
    else unsigned? body
  magnitude.map fun x => if negative then -x else x

end Stencil.Decimal
