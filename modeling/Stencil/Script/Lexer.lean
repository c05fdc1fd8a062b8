import Stencil.Script.Token
import Stencil.Text.Column
import Stencil.Text.Letter
import Stencil.Text.Quoted

/-!
Reading tokens. Blocks show in the stream as indent and dedent tokens, lines as newline tokens;
inside brackets neither counts. Reading stops at the first character that belongs to no token.
-/

namespace Stencil.Script

structure Reader where
  rest : List Char
  pos : Pos
  /-- The length of the line before. -/
  lastLength : Nat := 0

namespace Reader

def skip (r : Reader) : Reader :=
  match r.rest with
  | [] => r
  | '\n' :: rest => ⟨rest, ⟨r.pos.line + 1, 0, 0⟩, r.pos.column⟩
  | c :: rest => { r with rest, pos := ⟨r.pos.line, r.pos.column + 1, r.pos.byte + c.utf8Size⟩ }

def drop : Nat → Reader → Reader
  | 0, r => r
  | n + 1, r => drop n r.skip

/-- The characters up to the first that fails the test, and the position there. -/
def span (p : Char → Bool) (r : Reader) : List Char × Reader :=
  let s := r.rest.takeWhile p
  (s, r.drop s.length)

end Reader

def faultAt (message : String) (pos : Pos) : SyntaxFault :=
  ⟨.general, message, pos.line, pos.column + 1⟩

def neverClosed (bracket : Char) (pos : Pos) : SyntaxFault :=
  faultAt ("'" ++ String.singleton bracket ++ "' was never closed") pos

def isBlankInLine (c : Char) : Bool :=
  c == ' ' || c == '\t' || c.toNat == 0x0C

def mayStart (c : Char) : Bool :=
  c.isAlpha || c == '_' || 0x80 ≤ c.toNat

def mayContinue (c : Char) : Bool :=
  c.isAlphanum || c == '_' || 0x80 ≤ c.toNat

/-- The indentation of a line: tabs go to the next multiple of eight, or count as one. -/
def indentation : List Char → Nat → Nat → Nat × Nat
  | ' ' :: rest, wide, narrow => indentation rest (wide + 1) (narrow + 1)
  | '\t' :: rest, wide, narrow => indentation rest ((wide / 8 + 1) * 8) (narrow + 1)
  | c :: rest, wide, narrow => if c.toNat == 0x0C then indentation rest 0 0 else (wide, narrow)
  | [], wide, narrow => (wide, narrow)

def badLetter? (s : List Char) : Option (Nat × Char) :=
  match s with
  | [] => none
  | c :: rest =>
    if !Text.startsName c then some (0, c)
    else
      let n := (rest.takeWhile Text.continuesName).length
      (rest.drop n).head?.map fun d => (n + 1, d)

def codePoint (c : Char) : String :=
  let digits := (Text.hex 8 c.toNat).map Char.toUpper
  "U+" ++ String.ofList ((digits.take 4).dropWhile (· == '0') ++ digits.drop 4)

def strangeLetter (c : Char) : String :=
  if Text.isShown c then
    "invalid character '" ++ String.singleton c ++ "' (" ++ codePoint c ++ ")"
  else "invalid non-printable character " ++ codePoint c

def isMarks (s : List Char) : Bool :=
  ["r", "b", "u", "f", "rb", "br", "rf", "fr"].contains (String.ofList (s.map Char.toLower))

/-- The text up to a closing quote, which is cut off; a backslash hides the next character. -/
def stringBody (quote : List Char) : List Char → Option (List Char)
  | [] => none
  | '\\' :: d :: rest => (stringBody quote rest).map fun s => '\\' :: d :: s
  | c :: rest =>
    if quote.isPrefixOf (c :: rest) then some []
    else if quote.length == 1 && c == '\n' then none
    else (stringBody quote rest).map (c :: ·)

/-- Reads a string whose quote is next; the start includes the letters before it. -/
def readString (marks : List Char) (start : Pos) (lastLine : Nat) (r : Reader) :
    Except SyntaxFault (Token × Reader) :=
  let q := r.rest.head?.getD '"'
  let triple := [q, q, q].isPrefixOf r.rest
  let quote := if triple then [q, q, q] else [q]
  match stringBody quote (r.rest.drop quote.length) with
  | some body =>
    let after := r.drop (body.length + 2 * quote.length)
    .ok (⟨.string (String.ofList marks) (String.ofList body) triple, start, after.pos,
      start.column + 1⟩, after)
  | none =>
    if triple then
      .error (faultAt ("unterminated triple-quoted string literal (detected at line "
        ++ toString lastLine ++ ")") start)
    else
      let line := ((r.rest.drop 1).takeWhile (· != '\n'))
      let hidden := if line.getLast? == some '\\' then 1 else 0
      .error (faultAt ("unterminated string literal (detected at line "
        ++ toString (r.pos.line + hidden) ++ ")") start)

/-- Digits in runs that single underscores join; the rest starts where the runs end. -/
def digitRun (p : Char → Bool) : List Char → List Char × List Char
  | [] => ([], [])
  | c :: rest =>
    if p c then
      let (ds, after) := digitRun p rest
      (c :: ds, after)
    else
      match c, rest with
      | '_', d :: _ =>
        if p d then
          let (ds, after) := digitRun p rest
          ('_' :: ds, after)
        else ([], c :: rest)
      | _, _ => ([], c :: rest)

def basedNumber (name : String) (p : Char → Bool) (s : List Char) :
    Except (String × Nat) (List Char × List Char) :=
  let body := match s with
    | '_' :: rest => rest
    | s => s
  let (ds, rest) := digitRun p body
  let ds := if s.head? == some '_' then '_' :: ds else ds
  let joined := if rest.head? == some '_' then 1 else 0
  match rest.drop joined with
  | d :: _ =>
    if d.isDigit then .error ("invalid digit '" ++ String.singleton d ++ "' in " ++ name
      ++ " literal", ds.length + joined + 1)
    else if joined = 1 || mayContinue d || ds.all (· == '_') then
      .error ("invalid " ++ name ++ " literal", ds.length + joined)
    else .ok (ds, rest)
  | [] =>
    if joined = 1 || ds.all (· == '_') then .error ("invalid " ++ name ++ " literal", ds.length + joined)
    else .ok (ds, rest)

def followsNumber (s : List Char) : Bool :=
  ["and", "else", "for", "if", "in", "is", "not", "or"].any fun w => w.toList.isPrefixOf s

def exponentPart (s : List Char) : List Char :=
  match s with
  | e :: rest =>
    if e == 'e' || e == 'E' then
      let sign := rest.takeWhile fun c => c == '+' || c == '-'
      let sign := sign.take 1
      let (ds, _) := digitRun Char.isDigit (rest.drop sign.length)
      if ds.isEmpty then [] else e :: sign ++ ds
    else []
  | [] => []

/-- The characters of a number; an error gives its message and how far into the number it is. -/
def numberChars (s : List Char) : Except (String × Nat) (List Char) := do
  let based := fun (name : String) (p : Char → Bool) => do
    let (ds, _) ← (basedNumber name p (s.drop 2)).mapError fun (m, n) => (m, n + 2)
    return s.take 2 ++ ds
  match s with
  | '0' :: 'x' :: _ | '0' :: 'X' :: _ =>
    based "hexadecimal" fun c => c.isDigit || ('a' ≤ c && c ≤ 'f') || ('A' ≤ c && c ≤ 'F')
  | '0' :: 'o' :: _ | '0' :: 'O' :: _ => based "octal" fun c => '0' ≤ c && c ≤ '7'
  | '0' :: 'b' :: _ | '0' :: 'B' :: _ => based "binary" fun c => c == '0' || c == '1'
  | _ =>
    let (whole, rest) := digitRun Char.isDigit s
    let fraction := match rest with
      | '.' :: after => '.' :: (digitRun Char.isDigit after).1
      | _ => []
    let rest := rest.drop fraction.length
    let exponent := exponentPart rest
    let rest := rest.drop exponent.length
    let imaginary := rest.takeWhile (fun c => c == 'j' || c == 'J') |>.take 1
    let rest := rest.drop imaginary.length
    let text := whole ++ fraction ++ exponent ++ imaginary
    if fraction.isEmpty && exponent.isEmpty && imaginary.isEmpty && whole.head? == some '0'
        && whole.any (fun c => '1' ≤ c && c ≤ '9') then
      throw ("leading zeros in decimal integer literals are not permitted; "
        ++ "use an 0o prefix for octal integers", 1)
    let invalid := fun (n : Nat) => throw ("invalid decimal literal", text.length + n)
    match rest with
    | c :: more =>
      if c == '_' && (text.getLast?.map Char.isDigit).getD false then invalid 1
      else if (c == 'e' || c == 'E') && (more.head? == some '+' || more.head? == some '-') then invalid 2
      else if mayContinue c && !followsNumber rest then invalid 0
      else return text
    | [] => return text

def operators : List String :=
  ["**=", "//=", ">>=", "<<=", "...", "**", "//", ">>", "<<", "<=", ">=", "==", "!=", "->", "+=",
   "-=", "*=", "/=", "%=", "&=", "|=", "^=", "@=", ":=", "<>"]

/-- The operator at the front of a text; a character that is none stands for itself. -/
def operatorAt (s : List Char) : String :=
  (operators.find? fun o => o.toList.isPrefixOf s).getD (String.ofList (s.take 1))

def closes (opening closing : Char) : Bool :=
  (opening, closing) == ('(', ')') || (opening, closing) == ('[', ']')
    || (opening, closing) == ('\x7b', '\x7d')

structure LexState where
  reader : Reader
  /-- The widths of the open blocks, innermost first, in both counts of tabs. -/
  indents : List (Nat × Nat) := [(0, 0)]
  brackets : List (Char × Pos) := []
  lineStart : Bool := true
  tokens : Array Token := #[]
  lastLine : Nat

namespace LexState

def push (s : LexState) (kind : TokenKind) (start : Pos) (after : Reader) : LexState :=
  { s with reader := after, tokens := s.tokens.push ⟨kind, start, after.pos, start.column + 1⟩ }

/-- A token without a place of its own; messages about it name the width of the line so far. -/
def pushMark (s : LexState) (kind : TokenKind) (pos : Pos) (offset : Nat) : LexState :=
  { s with tokens := s.tokens.push ⟨kind, pos, pos, offset⟩ }

def dedentTo (wide : Nat) (pos : Pos) (offset : Nat) : List (Nat × Nat) → LexState → LexState
  | (w, n) :: rest, s =>
    if wide < w then dedentTo wide pos offset rest ({ s with indents := rest }.pushMark .dedent pos offset)
    else { s with indents := (w, n) :: rest }
  | [], s => s

inductive Step where
  | more (s : LexState)
  | done (s : LexState) (ending : Ending)

def fault (s : LexState) (f : SyntaxFault) : Step := .done s (.fault f)

def halt (s : LexState) (f : SyntaxFault) : Step := .done s (.halted f s.brackets.head?)

/-- The text ends where more has to follow: a bracket that is open is to blame first. -/
def haltAtEnd (s : LexState) (pos : Pos) : Step :=
  match s.brackets with
  | (c, opened) :: _ => s.halt (neverClosed c opened)
  | [] => s.halt (faultAt "unexpected EOF while parsing" pos)

def finish (s : LexState) : Step :=
  match s.brackets with
  | (c, pos) :: _ => s.halt (neverClosed c pos)
  | [] =>
    let pos : Pos := ⟨s.reader.pos.line - 1, s.reader.lastLength, s.reader.lastLength⟩
    let offset := s.reader.lastLength + 1
    let s := dedentTo 0 pos offset s.indents s
    .done (s.pushMark .finish pos offset) .complete

/-- The start of a line: its indentation opens or closes blocks, unless the line is blank. -/
def beginLine (s : LexState) : Step :=
  let (blanks, after) := s.reader.span isBlankInLine
  match after.rest with
  | [] => finish { s with reader := after, lineStart := false }
  | '\n' :: _ => .more { s with reader := after.skip }
  | '#' :: _ => .more { s with reader := (after.span (· != '\n')).2.skip }
  | _ =>
    let (wide, narrow) := indentation blanks 0 0
    let s := { s with reader := after, lineStart := false }
    let tabs := s.halt ⟨.tabs, "inconsistent use of tabs and spaces in indentation",
      after.pos.line, 1⟩
    match s.indents with
    | (w, n) :: _ =>
      if wide = w then if narrow = n then .more s else tabs
      else if w < wide then
        if narrow ≤ n then tabs
        else
          .more ({ s with indents := (wide, narrow) :: s.indents }.pushMark .indent after.pos
            after.pos.column)
      else
        let closed := dedentTo wide after.pos after.pos.column s.indents s
        if closed.indents.head? == some (wide, narrow) then .more closed
        else if (closed.indents.head?.map Prod.fst) == some wide then tabs
        else
          let length := after.pos.column + (after.rest.takeWhile (· != '\n')).length
          s.halt ⟨.indentation, "unindent does not match any outer indentation level",
            after.pos.line, length + 1⟩
    | [] => .more s

def closeBracket (s : LexState) (c : Char) : Step :=
  let pos := s.reader.pos
  match s.brackets with
  | [] => s.fault (faultAt ("unmatched '" ++ String.singleton c ++ "'") pos)
  | (o, opened) :: rest =>
    if closes o c then
      .more ({ s with brackets := rest }.push (.op (String.singleton c)) pos s.reader.skip)
    else
      s.fault (faultAt ("closing parenthesis '" ++ String.singleton c
        ++ "' does not match opening parenthesis '" ++ String.singleton o ++ "'"
        ++ (if opened.line = pos.line then "" else " on line " ++ toString opened.line)) pos)

def readName (s : LexState) : Step :=
  let pos := s.reader.pos
  let (cs, after) := s.reader.span mayContinue
  match after.rest with
  | '"' :: _ | '\'' :: _ =>
    if isMarks cs then
      match readString cs pos s.lastLine after with
      | .ok (t, after) => .more { s with reader := after, tokens := s.tokens.push t }
      | .error f => s.fault f
    else .more (s.push (.name (String.ofList cs)) pos after)
  | _ =>
    match badLetter? cs with
    | some (n, c) => s.fault (faultAt (strangeLetter c) (s.reader.drop n).pos)
    | none => .more (s.push (.name (String.ofList cs)) pos after)

def readNumber (s : LexState) : Step :=
  let pos := s.reader.pos
  match numberChars s.reader.rest with
  | .ok cs => .more (s.push (.number (String.ofList cs)) pos (s.reader.drop cs.length))
  | .error (message, n) => s.fault ⟨.general, message, pos.line, pos.column + n⟩

def readToken (s : LexState) : Step :=
  let r := (s.reader.span isBlankInLine).2
  let s := { s with reader := r }
  match r.rest with
  | [] => finish s
  | '#' :: _ | '\n' :: _ =>
    let after := (r.span (· != '\n')).2.skip
    if s.brackets.isEmpty then .more { s.push .newline r.pos after with lineStart := true }
    else .more { s with reader := after }
  | '\\' :: rest =>
    match rest with
    | '\n' :: [] => s.haltAtEnd ⟨r.pos.line, r.pos.column + 1, 0⟩
    | '\n' :: _ => .more { s with reader := r.skip.skip }
    | _ => s.halt ⟨.general, "unexpected character after line continuation character", r.pos.line,
        r.pos.column + 2⟩
  | '"' :: _ | '\'' :: _ =>
    match readString [] r.pos s.lastLine r with
    | .ok (t, after) => .more { s with reader := after, tokens := s.tokens.push t }
    | .error f => s.fault f
  | c :: rest =>
    if mayStart c then readName s
    else if c.isDigit || (c == '.' && (rest.head?.map Char.isDigit).getD false) then readNumber s
    else if c == '(' || c == '[' || c == '\x7b' then
      .more ({ s with brackets := (c, r.pos) :: s.brackets }.push (.op (String.singleton c)) r.pos
        r.skip)
    else if c == ')' || c == ']' || c == '\x7d' then closeBracket s c
    else if c.toNat < 0x20 || c.toNat == 0x7F then s.fault (faultAt (strangeLetter c) r.pos)
    else
      let o := operatorAt r.rest
      .more (s.push (.op o) r.pos (r.drop o.length))

def step (s : LexState) : Step :=
  if s.lineStart && s.brackets.isEmpty then beginLine s else readToken s

def run : Nat → LexState → TokenStream
  | 0, s => ⟨s.tokens, .complete⟩
  | fuel + 1, s =>
    match step s with
    | .more s => run fuel s
    | .done s ending => ⟨s.tokens, ending⟩

end LexState

def tokenize (source : List Char) : TokenStream :=
  LexState.run (source.length + 2)
    { reader := ⟨source, ⟨1, 0, 0⟩, 0⟩, lastLine := source.count '\n' }

def prepared (source : String) : List Char :=
  let s := Text.unifyEnds source.toList
  if s.isEmpty || s.getLast? == some '\n' then s else s ++ ['\n']

end Stencil.Script
