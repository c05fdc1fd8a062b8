import Stencil.Decimal.Places
import Stencil.Number
import Stencil.Text.Quoted

/-!
Percent templates: text with fields such as `%s`, `%5.2f` and `%*d` that take their values in order, or
by name where a field gives one. A template is cut into pieces first; what is wrong with a field counts
only once it is come to. A field takes its sizes before its value, and filling one with a number or a
text is a function of these alone.
-/

namespace Stencil.Text.Percent

inductive Key where
  | absent
  | named (name : String)
  /-- The bracket before the name is not closed. -/
  | unclosed
  deriving DecidableEq, Repr

inductive Size where
  | absent
  | fixed (n : Nat)
  /-- The next value says it. -/
  | taken
  deriving DecidableEq, Repr

structure Field where
  key : Key
  flags : List Char := []
  width : Size := .absent
  precision : Size := .absent
  /-- The sign at the end, unless the template ends before it. -/
  sign : Option Char
  /-- Where the sign stands in the template. -/
  index : Nat
  deriving Repr

inductive Piece where
  | text (s : List Char)
  | field (f : Field)
  deriving Repr

structure Conversion where
  flags : List Char := []
  width : Nat := 0
  precision : Option Nat := none
  sign : Char
  index : Nat := 0
  deriving Repr

/-- A value as far as conversions look at it, those to the text of any value aside. -/
inductive Scalar where
  | number (n : Number)
  | text (s : String)
  | other (kind : String)

inductive Fault where
  | incomplete
  | incompleteKey
  | unsupported (c : Char) (index : Nat)
  | tooFew
  | tooMany
  | noMapping
  | missing (key : String)
  | wideWidth
  | widePrecision
  | noSize
  | sizeTooLarge (type : String)
  | notReal (sign : Char) (kind : String)
  | notInteger (sign : Char) (kind : String)
  | notFloat (kind : String)
  | notInfinite (infinite : Bool)
  | tooLarge
  | notCharacter
  | noCharacter
  /-- There is no text with such a character. -/
  | surrogate
  deriving Repr

def Fault.message : Fault → String
  | incomplete => "incomplete format"
  | incompleteKey => "incomplete format key"
  | unsupported c i =>
    "unsupported format character '"
      ++ String.singleton (if 31 ≤ c.toNat && c.toNat ≤ 126 then c else '?') ++ "' (0x"
      ++ String.ofList ((hex 8 c.toNat).dropWhile (· == '0')) ++ ") at index " ++ toString i
  | tooFew => "not enough arguments for format string"
  | tooMany => "not all arguments converted during string formatting"
  | noMapping => "format requires a mapping"
  | missing key => quoted key
  | wideWidth => "width too big"
  | widePrecision => "precision too big"
  | noSize => "* wants int"
  | sizeTooLarge type => "Python int too large to convert to C " ++ type
  | notReal c kind =>
    "%" ++ String.singleton c ++ " format: a real number is required, not " ++ kind
  | notInteger c kind =>
    "%" ++ String.singleton c ++ " format: an integer is required, not " ++ kind
  | notFloat kind => "must be real number, not " ++ kind
  | notInfinite infinite =>
    "cannot convert float " ++ (if infinite then "infinity" else "NaN") ++ " to integer"
  | tooLarge => "int too large to convert to float"
  | notCharacter => "%c requires int or char"
  | noCharacter => "%c arg not in range(0x110000)"
  | surrogate => "surrogates not allowed"

def Fault.kind : Fault → String
  | incomplete | incompleteKey | unsupported _ _ | wideWidth | widePrecision | notInfinite false
  | surrogate => "ValueError"
  | sizeTooLarge _ | notInfinite true | tooLarge | noCharacter => "OverflowError"
  | missing _ => "KeyError"
  | tooFew | tooMany | noMapping | noSize | notReal _ _ | notInteger _ _ | notFloat _
  | notCharacter => "TypeError"

/-! Templates. -/

def readSize (s : List Char) : Size × List Char :=
  match s with
  | '*' :: rest => (.taken, rest)
  | s =>
    let ds := s.takeWhile Char.isDigit
    if ds.isEmpty then (.absent, s)
    else (.fixed (ds.foldl (fun n c => n * 10 + (c.toNat - '0'.toNat)) 0), s.drop ds.length)

def isFlag (c : Char) : Bool :=
  ['-', '+', ' ', '#', '0'].contains c

def isLength (c : Char) : Bool :=
  ['h', 'l', 'L'].contains c

/-- A name up to the bracket that closes it, and what follows; brackets in it are closed too. -/
def readName : Nat → List Char → Option (List Char × List Char)
  | _, [] => none
  | 0, ')' :: rest => some ([], rest)
  | depth, c :: rest =>
    let depth := if c = '(' then depth + 1 else if c = ')' then depth - 1 else depth
    (readName depth rest).map fun (name, after) => (c :: name, after)

def readKey (s : List Char) : Key × List Char :=
  match s with
  | '(' :: rest =>
    match readName 0 rest with
    | some (name, after) => (.named (String.ofList name), after)
    | none => (.unclosed, [])
  | s => (.absent, s)

def readPrecision (s : List Char) : Size × List Char :=
  match s with
  | '.' :: rest =>
    match readSize rest with
    | (.absent, after) => (.fixed 0, after)
    | read => read
  | s => (.absent, s)

def readField (total : Nat) (s : List Char) : Field × List Char :=
  let (key, s) := readKey s
  let flags := s.takeWhile isFlag
  let (width, s) := readSize (s.drop flags.length)
  let (precision, s) := readPrecision s
  let s := if s.head?.any isLength then s.drop 1 else s
  ({ key, flags, width, precision, sign := s.head?, index := total - s.length }, s.drop 1)

def readPieces (total : Nat) : Nat → List Char → List Piece
  | 0, _ => []
  | _, [] => []
  | fuel + 1, '%' :: '%' :: rest => .text ['%'] :: readPieces total fuel rest
  | fuel + 1, '%' :: rest =>
    let (f, after) := readField total rest
    .field f :: readPieces total fuel after
  | fuel + 1, c :: rest =>
    match readPieces total fuel rest with
    | .text s :: pieces => .text (c :: s) :: pieces
    | pieces => .text [c] :: pieces

def pieces (template : String) : List Piece :=
  let s := template.toList
  readPieces s.length (s.length + 1) s

/-! Sizes. -/

section sizes

variable {α : Type} (int? : α → Option Int)

def widthLimit : Nat := 0x8000000000000000

def precisionLimit : Nat := 0x80000000

def takeSize (type : String) (limit : Nat) : List α → Except Fault (Int × List α)
  | [] => .error .tooFew
  | v :: rest =>
    match int? v with
    | none => .error .noSize
    | some i =>
      if -(limit : Int) ≤ i && i < limit then .ok (i, rest) else .error (.sizeTooLarge type)

/-- The conversion of a field, and the values that its sizes leave. A width below zero is one with the
value at the left, and a precision below zero is none. -/
def Field.settle (f : Field) (values : List α) : Except Fault (Conversion × List α) := do
  let (width, values) ← match f.width with
    | .absent => pure (0, values)
    | .fixed n => if n < widthLimit then pure ((n : Int), values) else throw .wideWidth
    | .taken => takeSize int? "ssize_t" widthLimit values
  let (precision, values) ← match f.precision with
    | .absent => pure (none, values)
    | .fixed n => if n < precisionLimit then pure (some n, values) else throw .widePrecision
    | .taken =>
      let (i, values) ← takeSize int? "int" precisionLimit values
      pure (some i.toNat, values)
  match f.sign with
  | none => throw .incomplete
  | some sign =>
    let flags := if width < 0 then '-' :: f.flags else f.flags
    return ({ flags, width := width.natAbs, precision, sign, index := f.index }, values)

end sizes

/-! Conversions. -/

namespace Conversion

def pad (c : Conversion) (s : String) : String :=
  let blanks := String.ofList (List.replicate (c.width - s.length) ' ')
  if c.flags.contains '-' then s ++ blanks else blanks ++ s

def padNumber (c : Conversion) (sign digits : String) : String :=
  let zeros := String.ofList (List.replicate (c.width - sign.length - digits.length) '0')
  if c.flags.contains '0' && !c.flags.contains '-' then sign ++ zeros ++ digits
  else c.pad (sign ++ digits)

def signOf (c : Conversion) (negative : Bool) : String :=
  if negative then "-" else if c.flags.contains '+' then "+"
  else if c.flags.contains ' ' then " " else ""

def fillText (c : Conversion) (s : String) : String :=
  c.pad (match c.precision with
    | some p => String.ofList (s.toList.take p)
    | none => s)

end Conversion

def digitsIn (base : Nat) (upper : Bool) (n : Nat) : String :=
  let ds := String.ofList (Nat.toDigits base n)
  if upper then ds.map Char.toUpper else ds

namespace Conversion

def fillInt (c : Conversion) (i : Int) : String :=
  let n := i.natAbs
  let (mark, digits) := match c.sign with
    | 'x' => ("0x", digitsIn 16 false n)
    | 'X' => ("0X", digitsIn 16 true n)
    | 'o' => ("0o", digitsIn 8 false n)
    | _ => ("", toString n)
  let filled := String.ofList (List.replicate (c.precision.getD 0 - digits.length) '0') ++ digits
  c.padNumber (c.signOf (i < 0) ++ (if c.flags.contains '#' then mark else "")) filled

def magnitude (c : Conversion) (b : Option Decimal.Binary) : String :=
  let precision := c.precision.getD 6
  let point := c.flags.contains '#'
  let leading := fun (count : Nat) => (b.map (·.leading count)).getD ⟨0, 0⟩
  match c.sign with
  | 'e' | 'E' => Decimal.scientificText precision point (leading (precision + 1))
  | 'g' | 'G' =>
    let digits := max precision 1
    Decimal.generalText digits point (leading digits)
  | _ => Decimal.fixedText precision point ((b.map (·.inPlaces precision)).getD 0)

def fillFloat (c : Conversion) (x : Float) : String :=
  let (negative, digits) := match Decimal.Reading.ofFloat x with
    | .notANumber => (false, "nan")
    | .infinite negative => (negative, "inf")
    | .zero negative => (negative, c.magnitude none)
    | .finite negative b => (negative, c.magnitude (some b))
  c.padNumber (c.signOf negative) (if c.sign.isUpper then digits.map Char.toUpper else digits)

def fillCharacter (c : Conversion) (i : Int) : Except Fault String :=
  if i < 0 ∨ 0x110000 ≤ i then .error .noCharacter
  else if h : i.toNat.isValidChar then .ok (c.pad (String.singleton (Char.ofNatAux i.toNat h)))
  else .error .surrogate

def fill (c : Conversion) (v : Scalar) : Except Fault String :=
  match c.sign with
  | 'd' | 'i' | 'u' =>
    match v with
    | .number (.int i) => .ok (c.fillInt i)
    | .number (.float x) =>
      match Number.common x 1.0 with
      | some (a, b, _) => .ok (c.fillInt (Int.tdiv a b))
      | none => .error (.notInfinite x.isInf)
    | .text _ => .error (.notReal c.sign "str")
    | .other kind => .error (.notReal c.sign kind)
  | 'x' | 'X' | 'o' =>
    match v with
    | .number (.int i) => .ok (c.fillInt i)
    | .number (.float _) => .error (.notInteger c.sign "float")
    | .text _ => .error (.notInteger c.sign "str")
    | .other kind => .error (.notInteger c.sign kind)
  | 'e' | 'E' | 'f' | 'F' | 'g' | 'G' =>
    match v with
    | .number n =>
      match n.toFloat with
      | .ok x => .ok (c.fillFloat x)
      | .error _ => .error .tooLarge
    | .text _ => .error (.notFloat "str")
    | .other kind => .error (.notFloat kind)
  | 'c' =>
    match v with
    | .number (.int i) => c.fillCharacter i
    | .text s => if s.length = 1 then .ok (c.pad s) else .error .notCharacter
    | _ => .error .notCharacter
  | sign => .error (.unsupported sign c.index)

end Conversion

end Stencil.Text.Percent
