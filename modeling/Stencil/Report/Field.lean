import Stencil.Datum
import Stencil.Decimal.Read
import Stencil.Text.Blank
import Stencil.Report.Entry

/-!
Entries from loose data. A text field also takes encoded text; a counting field takes truth values,
whole numbers and the text of one; the truth field takes one and zero and the common words for
them. Fields that no entry has are passed over, and every faulty field is reported.
-/

namespace Stencil.Report

def decoded? (bs : List UInt8) : Option String :=
  String.fromUTF8? ⟨bs.toArray⟩

def textField : Datum → Except Fault String
  | .text s => .ok s
  | .bytes bs =>
    match decoded? bs with
    | some s => .ok s
    | none => .error .undecodableText
  | _ => .error .notText

def isMargin (c : Char) : Bool :=
  Text.isBlank c && !(0x1C ≤ c.toNat && c.toNat ≤ 0x1F)

def trimMargin (s : List Char) : List Char :=
  ((s.dropWhile isMargin).reverse.dropWhile isMargin).reverse

def dropZeroFraction (s : List Char) : List Char :=
  match Decimal.cutAt? (· == '.') s with
  | some (whole, fraction) => if fraction.all (· == '0') then whole else s
  | none => s

/-- The integer that a text spells: blanks around it, a sign, digits that single underscores may
separate, and a fraction of zeros. -/
def spelledInt? (s : List Char) : Option Int :=
  let digits := fun t => (Decimal.nat? (dropZeroFraction t)).map Int.ofNat
  match trimMargin s with
  | '+' :: rest => digits rest
  | '-' :: rest => (digits rest).map fun n => -n
  | rest => digits rest

def readInt (s : String) : Except Fault Int :=
  match spelledInt? s.toList with
  | some i => if s.length > 4300 then .error .oversizedInteger else .ok i
  | none => .error .unreadableInteger

def wholeFloat (x : Float) : Except Fault Int :=
  if x.isNaN || x.isInf then .error .notFinite
  else
    match Number.common x 1.0 with
    | some (a, b, _) =>
      if Int.fmod a b ≠ 0 then .error .fractional
      else
        let i := Int.fdiv a b
        if -Int.pow 2 63 < i ∧ i < Int.pow 2 63 then .ok i else .error .oversizedInteger
    | none => .error .notFinite

def intField : Datum → Except Fault Int
  | .int i => .ok i
  | .bool b => .ok (if b then 1 else 0)
  | .float x => wholeFloat x
  | .text s => readInt s
  | .bytes bs =>
    match decoded? bs with
    | some s => readInt s
    | none => .error .unreadableInteger
  | _ => .error .notInteger

def countField (d : Datum) : Except Fault Nat :=
  intField d >>= count

def spelledTruth? (s : String) : Option Bool :=
  let word := s.map Char.toLower
  if ["1", "on", "t", "true", "y", "yes"].contains word then some true
  else if ["0", "off", "f", "false", "n", "no"].contains word then some false
  else none

def readTruth (s : Option String) : Except Fault Bool :=
  match s >>= spelledTruth? with
  | some b => .ok b
  | none => .error .unreadableTruth

def truthOfInt (i : Int) : Except Fault Bool :=
  if i = 1 then .ok true else if i = 0 then .ok false else .error .unreadableTruth

def truthField : Datum → Except Fault Bool
  | .bool b => .ok b
  | .text s => readTruth (some s)
  | .bytes bs => readTruth (decoded? bs)
  | .int i => truthOfInt i
  | .float x =>
    match wholeFloat x with
    | .ok i => truthOfInt i
    | .error _ => .error .notTruth
  | _ => .error .notTruth

def field {α : Type} (fields : List (String × Datum)) (name : String)
    (read : Datum → Except Fault α) (absent : Except Fault α) : Except (List Issue) α :=
  Issue.named name (match fields.lookup name with
    | some d => read d
    | none => absent)

def Entry.ofFields (fields : List (String × Datum)) : Except (List Issue) Entry :=
  let make := (.ok Entry.mk : Except (List Issue) _)
  let text := Issue.apply make (field fields "error_text" textField (.error .missing))
  let file := Issue.apply text (field fields "file_name" textField (.ok ""))
  let line := Issue.apply file (field fields "line" countField (.ok 0))
  let column := Issue.apply line (field fields "column" countField (.ok 0))
  let number := Issue.apply column (field fields "error_number" textField (.error .missing))
  Issue.apply number (field fields "is_warning" truthField (.ok false))

end Stencil.Report
