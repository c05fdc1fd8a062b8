import Stencil.Decimal.Shortest

/-!
Layouts of decimal numbers: where the point stands, when an exponent is written, and the names of
the numbers that have no digits.
-/

namespace Stencil.Decimal

structure Layout where
  /-- Numbers with a leading power of ten in this range are written without an exponent. -/
  leastPlain : Int
  firstScientific : Int
  /-- An exponent has at least this many digits. -/
  exponentWidth : Nat
  notANumber : String
  infinity : String

def Layout.display : Layout := ⟨-4, 16, 2, "nan", "inf"⟩

def Layout.json : Layout := { Layout.display with notANumber := "NaN", infinity := "Infinity" }

private def signed (negative : Bool) (text : String) : String :=
  if negative then "-" ++ text else text

private def zeros (n : Nat) : String := String.ofList (List.replicate n '0')

def Layout.exponentText (l : Layout) (e : Int) : String :=
  let digits := toString e.natAbs
  "e" ++ (if e < 0 then "-" else "+") ++ zeros (l.exponentWidth - digits.length) ++ digits

def Layout.digitsText (l : Layout) (d : Digits) : String :=
  let digits := (toString d.coefficient).toList
  let point := (digits.length : Int) + d.exponent
  if l.leastPlain ≤ point - 1 ∧ point - 1 < l.firstScientific then
    if point ≤ 0 then "0." ++ zeros (-point).toNat ++ String.ofList digits
    else
      let whole := digits.take point.toNat
      let rest := digits.drop point.toNat
      String.ofList whole ++ zeros (point.toNat - digits.length) ++ "."
        ++ (if rest.isEmpty then "0" else String.ofList rest)
  else
    let rest := digits.drop 1
    String.ofList (digits.take 1) ++ (if rest.isEmpty then "" else "." ++ String.ofList rest)
      ++ l.exponentText (point - 1)

def Layout.reading (l : Layout) : Reading → String
  | .notANumber => l.notANumber
  | .infinite negative => signed negative l.infinity
  | .zero negative => signed negative "0.0"
  | .finite negative b => signed negative (l.digitsText b.shortest)

def Layout.text (l : Layout) (x : Float) : String :=
  l.reading (.ofFloat x)

end Stencil.Decimal
