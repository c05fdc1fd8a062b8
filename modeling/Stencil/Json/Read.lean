import Stencil.Datum
import Stencil.Decimal.Read

/-!
Reading JSON text. The reader takes what the writer produces and the rest of the format; a failure
names its cause and the character at which it was found.
-/

namespace Stencil.Json

open Decimal (digitValue?)

inductive ReadCause where
  | expectingValue
  | expectingName
  | expectingColon
  | expectingComma
  | unterminatedString
  | controlCharacter
  | badEscape (character : Char)
  | badUnitEscape
  | extraData
  deriving DecidableEq, Repr

def ReadCause.text : ReadCause → String
  | expectingValue => "Expecting value"
  | expectingName => "Expecting property name enclosed in double quotes"
  | expectingColon => "Expecting ':' delimiter"
  | expectingComma => "Expecting ',' delimiter"
  | unterminatedString => "Unterminated string starting at"
  | controlCharacter => "Invalid control character at"
  | badEscape c => "Invalid \\escape: " ++ Text.quoted (String.singleton c)
  | badUnitEscape => "Invalid \\uXXXX escape"
  | extraData => "Extra data"

/-- A cause and the number of characters that follow the place where it was found. -/
structure ReadError where
  cause : ReadCause
  remaining : Nat
  deriving DecidableEq, Repr

def ReadError.message (e : ReadError) (source : String) : String :=
  let cs := source.toList
  let offset := cs.length - e.remaining
  let before := cs.take offset
  let line := before.count '\n' + 1
  let column := (before.reverse.takeWhile (· != '\n')).length + 1
  s!"{e.cause.text}: line {line} column {column} (char {offset})"

abbrev Reader (α : Type) := List Char → Except ReadError (α × List Char)

def isSpace (c : Char) : Bool := c == ' ' || c == '\t' || c == '\n' || c == '\r'

def skip (s : List Char) : List Char := s.dropWhile isSpace

private def fail {α : Type} (cause : ReadCause) (at_ : List Char) : Except ReadError α :=
  .error ⟨cause, at_.length⟩

def hexValue? (c : Char) : Option Nat :=
  match digitValue? c with
  | some d => some d
  | none =>
    if 'a' ≤ c ∧ c ≤ 'f' then some (c.toNat - 'a'.toNat + 10)
    else if 'A' ≤ c ∧ c ≤ 'F' then some (c.toNat - 'A'.toNat + 10)
    else none

def unit? : List Char → Option (Nat × List Char)
  | a :: b :: c :: d :: rest => do
    let a ← hexValue? a
    let b ← hexValue? b
    let c ← hexValue? c
    let d ← hexValue? d
    some (((a * 16 + b) * 16 + c) * 16 + d, rest)
  | _ => none

def simpleEscape? : Char → Option Char
  | '"' => some '"'
  | '\\' => some '\\'
  | '/' => some '/'
  | 'b' => some '\x08'
  | 'f' => some '\x0c'
  | 'n' => some '\n'
  | 'r' => some '\r'
  | 't' => some '\t'
  | _ => none

/-- The rest of a string after its opening quote; `start` is the text from that quote on. -/
def stringBody (start : List Char) : Nat → List Char → Except ReadError (List Char × List Char)
  | 0, _ => fail .unterminatedString start
  | fuel + 1, s =>
    match s with
    | [] => fail .unterminatedString start
    | '"' :: rest => .ok ([], rest)
    | '\\' :: [] => fail .unterminatedString start
    | '\\' :: 'u' :: rest =>
      match unit? rest with
      | none => fail .badUnitEscape rest
      | some (high, rest') =>
        let pair : Option (Nat × List Char) :=
          if 0xD800 ≤ high ∧ high < 0xDC00 then
            match rest' with
            | '\\' :: 'u' :: tail =>
              match unit? tail with
              | some (low, tail') =>
                if 0xDC00 ≤ low ∧ low < 0xE000 then
                  some (0x10000 + (high - 0xD800) * 0x400 + (low - 0xDC00), tail')
                else none
              | none => none
            | _ => none
          else none
        let (code, tail) := pair.getD (high, rest')
        do
          let (cs, after) ← stringBody start fuel tail
          return (Char.ofNat code :: cs, after)
    | '\\' :: c :: rest =>
      match simpleEscape? c with
      | none => fail (.badEscape c) ('\\' :: c :: rest)
      | some d => do
        let (cs, after) ← stringBody start fuel rest
        return (d :: cs, after)
    | c :: rest =>
      if c.toNat < 0x20 then fail .controlCharacter s
      else do
        let (cs, after) ← stringBody start fuel rest
        return (c :: cs, after)

private def digitsOf (s : List Char) : List Char × List Char :=
  (s.takeWhile Char.isDigit, s.dropWhile Char.isDigit)

private def natOf (s : List Char) : Nat :=
  Decimal.natOfDigits (s.filterMap digitValue?)

theorem digitsOf_append {ds rest : List Char} (digits : ∀ c ∈ ds, c.isDigit = true)
    (ends : ∀ c ∈ rest.head?, c.isDigit = false) : digitsOf (ds ++ rest) = (ds, rest) := by
  rw [digitsOf, List.takeWhile_append_of_pos digits, List.dropWhile_append_of_pos digits]
  cases rest with
  | nil => rw [List.takeWhile_nil, List.dropWhile_nil, List.append_nil]
  | cons c rest =>
    have stops := ends c rfl
    rw [List.takeWhile_cons, List.dropWhile_cons, stops, if_neg Bool.false_ne_true,
      if_neg Bool.false_ne_true, List.append_nil]

theorem natOf_eq (s : List Char) : natOf s = Decimal.natOfDigits (s.filterMap digitValue?) := rfl

def number? (s : List Char) : Option (Datum × List Char) := do
  let (negative, body) := match s with
    | '-' :: rest => (true, rest)
    | rest => (false, rest)
  let (whole, rest) := match body with
    | '0' :: rest => (['0'], rest)
    | rest => digitsOf rest
  if whole.isEmpty then none
  else
    let (fraction, rest) := match rest with
      | '.' :: tail => if (digitsOf tail).1.isEmpty then ([], rest) else digitsOf tail
      | _ => ([], rest)
    let exponent : Option (Int × List Char) := match rest with
      | e :: tail =>
        if e == 'e' || e == 'E' then
          let (negativeExponent, tail) := match tail with
            | '-' :: t => (true, t)
            | '+' :: t => (false, t)
            | t => (false, t)
          let (ds, tail) := digitsOf tail
          if ds.isEmpty then none
          else some (if negativeExponent then -(natOf ds : Int) else natOf ds, tail)
        else none
      | [] => none
    match fraction, exponent with
    | [], none =>
      let n : Int := natOf whole
      some (.int (if negative then -n else n), rest)
    | fs, e =>
      let (power, rest) := e.getD (0, rest)
      let x := Decimal.toFloat (natOf (whole ++ fs)) (power - (fs.length : Int))
      some (.float (if negative then -x else x), rest)

def name? (s : List Char) : Option (Datum × List Char) :=
  let table : List (String × Datum) :=
    [("null", .null), ("true", .bool true), ("false", .bool false), ("NaN", .float (0.0 / 0.0)),
     ("Infinity", .float (1.0 / 0.0)), ("-Infinity", .float (-1.0 / 0.0))]
  table.findSome? fun (name, value) =>
    let n := name.toList
    if n.isPrefixOf s then some (value, s.drop n.length) else none

mutual

def value : Nat → List Char → Except ReadError (Datum × List Char)
  | 0, s => fail .expectingValue s
  | fuel + 1, s =>
    match s with
    | '"' :: rest => do
      let (cs, after) ← stringBody s rest.length.succ rest
      return (.text (String.ofList cs), after)
    | '[' :: rest =>
      match skip rest with
      | ']' :: after => .ok (.list [], after)
      | inner => do
        let (items, after) ← values fuel inner
        return (.list items, after)
    | '\x7b' :: rest =>
      match skip rest with
      | '\x7d' :: after => .ok (.table [], after)
      | inner => do
        let (entries, after) ← members fuel inner
        return (Datum.tableOf entries, after)
    | _ =>
      match name? s with
      | some r => .ok r
      | none =>
        match number? s with
        | some r => .ok r
        | none => fail .expectingValue s

def values : Nat → List Char → Except ReadError (List Datum × List Char)
  | 0, s => fail .expectingValue s
  | fuel + 1, s => do
    let (first, rest) ← value fuel s
    match skip rest with
    | ']' :: after => return ([first], after)
    | ',' :: tail =>
      let (others, after) ← values fuel (skip tail)
      return (first :: others, after)
    | other => fail .expectingComma other

def members : Nat → List Char → Except ReadError (List (Datum × Datum) × List Char)
  | 0, s => fail .expectingValue s
  | fuel + 1, s =>
    match s with
    | '"' :: rest => do
      let (key, rest) ← stringBody s rest.length.succ rest
      match skip rest with
      | ':' :: tail =>
        let (v, rest) ← value fuel (skip tail)
        match skip rest with
        | '\x7d' :: after => return ([(.text (String.ofList key), v)], after)
        | ',' :: tail =>
          let (others, after) ← members fuel (skip tail)
          return ((.text (String.ofList key), v) :: others, after)
        | other => fail .expectingComma other
      | other => fail .expectingColon other
    | _ => fail .expectingName s

end

def read (source : String) : Except ReadError Datum := do
  let s := skip source.toList
  let (d, rest) ← value (s.length + 1) s
  match skip rest with
  | [] => return d
  | other => fail .extraData other

end Stencil.Json
