import Stencil.Decimal.Read
import Stencil.Script.Syntax

/-!
Reading literals: numbers in every base, and the escapes of text and bytes. An escape that means
nothing stays as it is and is worth a warning.
-/

namespace Stencil.Script

def hexValue? (c : Char) : Option Nat :=
  if c.isDigit then some (c.toNat - '0'.toNat)
  else if 'a' ≤ c ∧ c ≤ 'f' then some (c.toNat - 'a'.toNat + 10)
  else if 'A' ≤ c ∧ c ≤ 'F' then some (c.toNat - 'A'.toNat + 10)
  else none

def natInBase (base : Nat) (s : List Char) : Nat :=
  s.foldl (fun n c => match hexValue? c with
    | some d => n * base + d
    | none => n) 0

def numberLiteral (text : String) : Literal :=
  let s := text.toList
  match s with
  | '0' :: 'x' :: ds | '0' :: 'X' :: ds => .int (natInBase 16 ds)
  | '0' :: 'o' :: ds | '0' :: 'O' :: ds => .int (natInBase 8 ds)
  | '0' :: 'b' :: ds | '0' :: 'B' :: ds => .int (natInBase 2 ds)
  | _ =>
    if s.all fun c => c.isDigit || c == '_' then .int (natInBase 10 s)
    else
      match Decimal.float? (String.ofList (s.filter (· != '_'))) with
      | some x => .float x
      | none => .float 0.0

inductive Escaped where
  | char (c : Char)
  /-- Nothing: a line end that is hidden. -/
  | hidden
  | invalid (c : Char)
  /-- An escape that is cut short, by its name. -/
  | truncated (form : String)
  | malformedName
  | unknownName
  deriving Repr

def isOctal (c : Char) : Bool := '0' ≤ c && c ≤ '7'

def fixedEscape (width : Nat) (form : String) (s : List Char) : Escaped × List Char :=
  let ds := (s.take width).takeWhile fun c => (hexValue? c).isSome
  if ds.length = width then (.char (Char.ofNat (natInBase 16 ds)), s.drop width)
  else (.truncated form, s.drop ds.length)

def namedEscape (s : List Char) : Escaped × List Char :=
  match s with
  | '\x7b' :: rest =>
    let name := rest.takeWhile (· != '\x7d')
    let after := rest.drop name.length
    if after.isEmpty || name.isEmpty then (.malformedName, after) else (.unknownName, after.drop 1)
  | s => (.malformedName, s)

def readEscape (bytes : Bool) : List Char → Escaped × List Char
  | [] => (.char '\\', [])
  | c :: rest =>
    match c with
    | '\n' => (.hidden, rest)
    | '\\' => (.char '\\', rest)
    | '\'' => (.char '\'', rest)
    | '"' => (.char '"', rest)
    | 'a' => (.char (Char.ofNat 7), rest)
    | 'b' => (.char (Char.ofNat 8), rest)
    | 'f' => (.char (Char.ofNat 12), rest)
    | 'n' => (.char '\n', rest)
    | 'r' => (.char '\r', rest)
    | 't' => (.char '\t', rest)
    | 'v' => (.char (Char.ofNat 11), rest)
    | 'x' => fixedEscape 2 "xXX" rest
    | 'u' => if bytes then (.invalid c, rest) else fixedEscape 4 "uXXXX" rest
    | 'U' => if bytes then (.invalid c, rest) else fixedEscape 8 "UXXXXXXXX" rest
    | 'N' => if bytes then (.invalid c, rest) else namedEscape rest
    | _ =>
      if isOctal c then
        let ds := ((c :: rest).take 3).takeWhile isOctal
        (.char (Char.ofNat (natInBase 8 ds)), (c :: rest).drop ds.length)
      else (.invalid c, rest)

/-- Decoded text: its characters, the invalid escapes in order, and the first broken escape with the
count of characters before it and its width. -/
structure Decoded where
  chars : List Char := []
  invalid : List Char := []
  broken : Option (Escaped × Nat × Nat) := none

def decodeEscapes (bytes : Bool) : Nat → Nat → List Char → Decoded
  | 0, _, _ => {}
  | _, _, [] => {}
  | fuel + 1, done, '\\' :: rest =>
    let (e, after) := readEscape bytes rest
    let width := rest.length + 1 - after.length
    match e with
    | .char c =>
      let d := decodeEscapes bytes fuel (done + width) after
      { d with chars := c :: d.chars }
    | .hidden => decodeEscapes bytes fuel (done + width) after
    | .invalid c =>
      let d := decodeEscapes bytes fuel (done + width) after
      { d with chars := '\\' :: c :: d.chars, invalid := c :: d.invalid }
    | e => { broken := some (e, done, width) }
  | fuel + 1, done, c :: rest =>
    let d := decodeEscapes bytes fuel (done + 1) rest
    { d with chars := c :: d.chars }

def decodeBody (raw bytes : Bool) (body : List Char) : Decoded :=
  if raw then { chars := body } else decodeEscapes bytes (body.length + 1) 0 body

end Stencil.Script
