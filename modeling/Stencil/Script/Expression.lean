import Stencil.Script.Literal
import Stencil.Script.Reading

/-!
Reading expressions, by levels of precedence. The rules that can come back to themselves are given
as a record; each level is a reader over that record, and a record of rules for one more level of
nesting is built from a record for one less.
-/

namespace Stencil.Script

open Read

structure Rules where
  expression : Read Expr
  factor : Read Expr
  inversion : Read Expr

namespace Rules

def namedOr (r : Rules) : Read Expr := do
  let t ← peek
  match t.kind with
  | .name s =>
    if keywords.contains s then r.expression
    else if (← peekNext).kind == .op ":=" then
      advance
      advance
      return .assign t.start s (← r.expression)
    else r.expression
  | _ => r.expression

def missingComma {α : Type} (r : Rules) : Read α := do
  let s ← get
  if s.depth = 0 || !(← startsExpression) then stuck
  let at_ := fun (i : Nat) => (s.stream.tokens[i]?.map Token.kind).getD .finish
  let hinted := match at_ s.operandIndex, at_ (s.operandIndex + 1) with
    | .name _, .string _ _ _ => false
    | .name w, _ => !softKeywords.contains w && w != "print" && w != "exec"
    | _, _ => true
  if hinted then
    match ← attempt r.expression with
    | some _ =>
      failAt "invalid syntax. Perhaps you forgot a comma?"
        ((s.stream.tokens[s.operandIndex]?.map Token.start).getD default)
    | none => stuck
  else stuck

def close (r : Rules) (bracket : String) : Read Unit := do
  if !(← takeOp bracket) then r.missingComma

def leftward (operators : List (String × BinaryOp)) (operand : Read Expr) : Read Expr := do
  let start ← here
  let first ← operand
  repeatWith (fun left => do
    match (← peek).kind with
    | .op o =>
      match operators.lookup o with
      | some op =>
        advance
        return some (.binary start op left (← operand))
      | none => return none
    | _ => return none) (← budget) first

/-- How a message about a broken escape in text begins; the place of the escape is counted in the
units that the text has when all characters beyond the first 128 are written as escapes. -/
def badEscape (first last : Nat) : String :=
  "(unicode error) 'unicodeescape' codec can't decode bytes in position " ++ toString first ++ "-"
    ++ toString last ++ ": "

def invalidEscape (c : Char) : String :=
  "invalid escape sequence '\\" ++ String.singleton c ++ "'"

/-- How wide a text is when all characters beyond the first 128 are written as escapes. -/
def escapedWidth (s : List Char) : Nat :=
  s.foldl (fun width c => width + if c.toNat < 0x80 then 1 else 10) 0

def decoded (token : Token) (raw bytes : Bool) (body : List Char) : Read (List Char) := do
  let d := decodeBody raw bytes body
  match d.invalid with
  | c :: _ => warn token.start.line (invalidEscape c)
  | [] => pure ()
  match d.broken with
  | some (e, before, width) =>
    let first := escapedWidth (body.take before)
    let last := first + width - 1
    match e with
    | .truncated form =>
      if bytes then failHere ("(value error) invalid \\x escape at position " ++ toString first)
      else failHere (badEscape first last ++ "truncated \\" ++ form ++ " escape")
    | .malformedName => failHere (badEscape first last ++ "malformed \\N character escape")
    | _ => failHere (badEscape first last ++ "unknown Unicode character name")
  | none => return d.chars

/-- The expression of a field: characters up to the mark that ends it outside brackets and quotes. The
brackets that are open are given, innermost first. -/
def fieldChars : List Char → List Char → Option Char → Except String (List Char)
  | [], _, some _ => .error "f-string: unterminated string"
  | [], o :: _, none => .error ("f-string: unmatched '" ++ String.singleton o ++ "'")
  | [], [], none => .error "f-string: expecting '\x7d'"
  | c :: rest, brackets, quote => do
    let onward := fun (brackets : List Char) (quote : Option Char) => do
      return c :: (← fieldChars rest brackets quote)
    if c = '\\' then throw "f-string expression part cannot include a backslash"
    match quote with
    | some q => onward brackets (if c = q then none else some q)
    | none =>
      if c = '\'' || c = '"' then onward brackets (some c)
      else if c = '(' || c = '[' || c = '\x7b' then onward (c :: brackets) none
      else if c = '#' then throw "f-string expression part cannot include '#'"
      else
        match brackets with
        | [] =>
          if c = '\x7d' || c = ':' || (c = '!' && rest.head? != some '=') then return []
          else if c = ')' || c = ']' then
            throw ("f-string: unmatched '" ++ String.singleton c ++ "'")
          else onward [] none
        | o :: outer =>
          if c = ')' || c = ']' || c = '\x7d' then
            if closes o c then onward outer none
            else
              throw ("f-string: closing parenthesis '" ++ String.singleton c
                ++ "' does not match opening parenthesis '" ++ String.singleton o ++ "'")
          else onward brackets none

def displayed (s : List Char) : Option (List Char) :=
  let t := s.reverse.dropWhile isBlankInLine
  match t with
  | '=' :: before =>
    match before with
    | c :: _ => if c = '=' || c = '!' || c = '<' || c = '>' then none else some before.reverse
    | [] => none
  | _ => none

/-- A fault inside a field, whose columns are those of its expression in parentheses. -/
def fieldFault (text : Reader) (f : SyntaxFault) : SyntaxFault :=
  { f with
    message := "f-string: " ++ f.message
    offset := if f.line = text.pos.line then f.offset + 1 - text.pos.column else f.offset }

def subexpression (r : Rules) (text : Reader) : Read Expr := do
  let saved ← get
  let start := (text.span fun c => isBlankInLine c || c == '\n').2
  if start.rest.isEmpty then failHere "f-string: empty expression not allowed"
  let lexed := LexState.run (start.rest.length + 2)
    { reader := start, brackets := [('(', start.pos)], lineStart := false, lastLine := start.pos.line }
  match lexed.ending with
  | .fault f => throw (.rule (fieldFault text f))
  | _ => pure ()
  let last := (text.drop text.rest.length).pos
  let stop : Token := ⟨.finish, last, last, last.column + 1⟩
  set { saved with
    stream := ⟨lexed.tokens.push stop, .complete⟩, index := 0, furthest := 0, depth := 1
    operandIndex := 0 }
  let body : Read Expr := do
    let first ← here
    let (items, comma) ← commaList r.namedOr startsExpression
    if (← peek).kind != .finish then r.missingComma
    match items, comma with
    | [e], false => return e
    | items, _ => return .tuple first items
  let result ← attemptPlain body
  let inner ← get
  set { saved with warnings := inner.warnings }
  match result with
  | .ok e => return e
  | .error (.rule f) | .error (.token f) => throw (.rule (fieldFault text f))
  | .error .stuck =>
    let t := inner.stream.tokens[inner.furthest]?.getD stop
    throw (.rule (fieldFault text ⟨.general, "invalid syntax", t.start.line, t.offset⟩))

/-- The parts of text with fields; a layout ends at the closing brace of its field. -/
def textParts (r : Rules) (token : Token) (raw : Bool) :
    Nat → Bool → Reader → Read (List TextPart × Reader)
  | 0, _, text => return ([], text)
  | fuel + 1, layout, text => do
    match text.rest with
    | [] => return ([], text)
    | '\x7b' :: rest =>
      if !layout && rest.head? == some '\x7b' then
        let (more, after) ← textParts r token raw fuel layout (text.drop 2)
        return (.text "\x7b" :: more, after)
      else
        let inside := text.skip
        let chars ← match fieldChars inside.rest [] none with
          | .ok chars => pure chars
          | .error message => failHere message
        let shown := displayed chars
        let expr ← r.subexpression { inside with rest := shown.getD chars }
        let after := inside.drop chars.length
        let (conversion, after) := match after.rest with
          | '!' :: c :: _ => (some c, after.drop 2)
          | _ => (none, after)
        if !(conversion.all fun c => c == 's' || c == 'r' || c == 'a') then
          failHere "f-string: invalid conversion character: expected 's', 'r', or 'a'"
        let (spec, after) ← match after.rest with
          | ':' :: _ => textParts r token raw fuel true after.skip
          | _ => pure ([], after)
        match after.rest with
        | '\x7d' :: _ =>
          let conversion := if shown.isSome && conversion.isNone && spec.isEmpty then some 'r'
            else conversion
          let label := if shown.isSome then [TextPart.text (String.ofList chars)] else []
          let (more, last) ← textParts r token raw fuel layout after.skip
          return (label ++ .field expr conversion spec :: more, last)
        | _ => failHere "f-string: expecting '\x7d'"
    | '\x7d' :: rest =>
      if layout then return ([], text)
      else if rest.head? == some '\x7d' then
        let (more, after) ← textParts r token raw fuel layout (text.drop 2)
        return (.text "\x7d" :: more, after)
      else failHere "f-string: single '\x7d' is not allowed"
    | _ =>
      let (cs, after) := text.span fun c => c != '\x7b' && c != '\x7d'
      let chars ← decoded token raw false cs
      let (more, last) ← textParts r token raw fuel layout after
      return (.text (String.ofList chars) :: more, last)

inductive StringPiece where
  | text (parts : List TextPart)
  | bytes (value : List UInt8)

def stringPiece (r : Rules) (t : Token) (marks body : String) (triple : Bool) :
    Read StringPiece := do
  let marks := marks.toList.map Char.toLower
  let raw := marks.contains 'r'
  if marks.contains 'b' then
    if body.toList.any fun c => 0x80 ≤ c.toNat then
      failAt "bytes can only contain ASCII literal characters" t.start
    let chars ← decoded t raw true body.toList
    return .bytes (chars.map fun c => c.toNat.toUInt8)
  else if marks.contains 'f' then
    let skipped := marks.length + (if triple then 3 else 1)
    let pos : Pos := { t.start with
      column := t.start.column + skipped, byte := t.start.byte + skipped }
    let (parts, _) ← r.textParts t raw (2 * body.length + 2) false ⟨body.toList, pos, 0⟩
    return .text (if parts.isEmpty then [.text ""] else parts)
  else return .text [.text (String.ofList (← decoded t raw false body.toList))]

def mergeParts : List TextPart → List TextPart
  | .text a :: rest =>
    match mergeParts rest with
    | .text b :: more => .text (a ++ b) :: more
    | more => .text a :: more
  | p :: rest => p :: mergeParts rest
  | [] => []

def strings (r : Rules) : Read Expr := do
  let start ← here
  let tokens ← repeatWith (fun (ts : List Token) => do
    let t ← peek
    match t.kind with
    | .string _ _ _ => advance; return some (t :: ts)
    | _ => return none) (← budget) []
  let pieces ← tokens.reverse.mapM fun t => do
    match t.kind with
    | .string marks body triple =>
      return (← r.stringPiece t marks body triple, (marks.toList.map Char.toLower).contains 'f')
    | _ => stuck
  let texts := pieces.filterMap fun
    | (.text parts, _) => some parts
    | _ => none
  let bytes := pieces.filterMap fun
    | (.bytes bs, _) => some bs
    | _ => none
  if !texts.isEmpty && !bytes.isEmpty then failHere "cannot mix bytes and nonbytes literals"
  if !bytes.isEmpty then return .literal start (.bytes bytes.flatten)
  let parts := mergeParts texts.flatten
  if pieces.any Prod.snd then return .joined start parts
  match parts with
  | [.text s] => return .literal start (.text s)
  | _ => return .literal start (.text "")

def invalidTarget? (deleting : Bool) : Nat → Expr → Option Expr
  | 0, _ => none
  | fuel + 1, e =>
    match e with
    | .list _ items | .tuple _ items => items.findSome? (invalidTarget? deleting fuel)
    | .starred _ inner => if deleting then some e else invalidTarget? deleting fuel inner
    | .name _ _ | .subscript _ _ _ | .member _ _ _ _ => none
    | e => some e

def targetDepth : Nat := 100

def checkTarget (e : Expr) : Read Unit :=
  match invalidTarget? false targetDepth e with
  | some bad => failAt ("cannot assign to " ++ bad.description) bad.pos
  | none => pure ()

/-- Whether an expression is made of operators that bind tighter than comparisons. -/
def isOperand : Expr → Bool
  | .compare _ _ _ | .unary _ .not _ | .both _ _ | .either _ _ | .lambda _ _ _
  | .conditional _ _ _ _ | .starred _ _ | .yield _ _ | .yieldFrom _ _ => false
  | _ => true

/-- Displays and constants, of which no message suggests that a comparison was meant. -/
def isPlainTarget : Expr → Bool
  | .list _ _ | .tuple _ _ | .comprehension _ .generator _ _ _ => true
  | .literal _ .none | .literal _ (.bool _) => true
  | _ => false

def bitOr (r : Rules) : Read Expr :=
  let shift := leftward [("<<", .shiftLeft), (">>", .shiftRight)]
    (leftward [("+", .add), ("-", .sub)]
      (leftward [("*", .mul), ("/", .divide), ("//", .floorDivide), ("%", .mod), ("@", .matrix)]
        r.factor))
  leftward [("|", .bitOr)] (leftward [("^", .bitXor)] (leftward [("&", .bitAnd)] shift))

def refuseEquals (r : Rules) (e : Expr) (named : Bool) : Read Unit := do
  if isOperand e && !isPlainTarget e then
    let compared ← attempt do
      advance
      let _ ← r.bitOr
      if (← atOp "=") || (← atOp ":=") then stuck
    if compared.isSome then
      match e, named with
      | .name pos _, true =>
        failAt "invalid syntax. Maybe you meant '==' or ':=' instead of '='?" pos
      | _, _ =>
        failAt ("cannot assign to " ++ e.description
          ++ " here. Maybe you meant '==' instead of '='?") e.pos

def named (r : Rules) : Read Expr := do
  let start ← here
  let e ← r.namedOr
  match e with
  | .assign pos _ _ => if pos == start then return e
  | _ => pure ()
  if ← atOp "=" then r.refuseEquals e true
  return e

def starredOr (r : Rules) (plain : Read Expr) : Read Expr := do
  let start ← here
  if ← takeOp "*" then return .starred start (← r.bitOr) else plain

def itemsOr (r : Rules) (item : Read Expr) : Read Expr := do
  let start ← here
  let (items, comma) ← commaList (r.starredOr item) startsItem
  match items, comma with
  | [e], false => return e
  | items, _ => return .tuple start items

def targets (r : Rules) : Read Expr := do
  let e ← r.itemsOr r.bitOr
  checkTarget e
  return e

def conjunction (r : Rules) : Read Expr := do
  let start ← here
  let first ← r.inversion
  let items ← repeatWith (fun items => do
    if ← takeName "and" then return some ((← r.inversion) :: items) else return none)
    (← budget) [first]
  match items with
  | [e] => return e
  | items => return .both start items.reverse

def disjunction (r : Rules) : Read Expr := do
  let start ← here
  let first ← r.conjunction
  let items ← repeatWith (fun items => do
    if ← takeName "or" then return some ((← r.conjunction) :: items) else return none)
    (← budget) [first]
  match items with
  | [e] => return e
  | items => return .either start items.reverse

def clause (r : Rules) : Read Clause := do
  expectName "for"
  let target ← r.targets
  expectName "in"
  let source ← r.disjunction
  let conditions ← repeatWith (fun conditions => do
    if ← takeName "if" then return some ((← r.disjunction) :: conditions) else return none)
    (← budget) []
  return .clause target source conditions.reverse

def clauses (r : Rules) : Read (List Clause) := do
  let cs ← repeatWith (fun cs => do
    if ← atName "for" then return some ((← r.clause) :: cs) else return none) (← budget) []
  return cs.reverse

def parenthesized (r : Rules) : Read Expr := do
  let start ← here
  expectOp "("
  if ← takeOp ")" then return .tuple start []
  if ← atName "yield" then
    let yieldPos ← here
    advance
    let value ← if ← takeName "from" then pure (Expr.yieldFrom yieldPos (← r.expression))
      else if ← startsItem then pure (Expr.yield yieldPos (some (← r.itemsOr r.expression)))
      else pure (Expr.yield yieldPos none)
    r.close ")"
    return value
  let first ← r.starredOr r.named
  if ← atName "for" then
    let cs ← r.clauses
    r.close ")"
    return .comprehension start .generator first none cs
  if ← takeOp "," then
    if ← takeOp ")" then return .tuple start [first]
    if !(← startsItem) then stuck
    let (rest, _) ← commaList (r.starredOr r.named) startsItem
    r.close ")"
    return .tuple start (first :: rest)
  match first with
  | .starred pos _ =>
    if ← atOp ")" then failAt "cannot use starred expression here" pos else r.missingComma
  | e =>
    r.close ")"
    return e

def listDisplay (r : Rules) : Read Expr := do
  let start ← here
  expectOp "["
  if ← takeOp "]" then return .list start []
  let first ← r.starredOr r.named
  if ← atName "for" then
    let cs ← r.clauses
    r.close "]"
    return .comprehension start .list first none cs
  if ← takeOp "," then
    if ← takeOp "]" then return .list start [first]
    if !(← startsItem) then stuck
    let (rest, _) ← commaList (r.starredOr r.named) startsItem
    r.close "]"
    return .list start (first :: rest)
  r.close "]"
  return .list start [first]

def dictValue (r : Rules) : Read Expr := do
  let colon ← here
  expectOp ":"
  if ← atOp "*" then
    failAt "cannot use a starred expression in a dictionary value" (← here)
  if (← atOp ",") || (← atOp "\x7d") then
    failAt "expression expected after dictionary key and ':'" colon
  r.expression

def dictEntry (r : Rules) : Read DictEntry := do
  if ← takeOp "**" then return .entry none (← r.bitOr)
  let key ← r.expression
  if ← atOp ":" then return .entry (some key) (← r.dictValue)
  if ← startsExpression then r.missingComma
  let stop := ((← get).stream.tokens[(← get).index - 1]?.map Token.stop).getD key.pos
  failAt "':' expected after dictionary key" { key.pos with column := stop.column - 1 }

def braces (r : Rules) : Read Expr := do
  let start ← here
  expectOp "\x7b"
  if ← takeOp "\x7d" then return .dict start []
  let entryStarts : Read Bool := do
    if ← atOp "**" then return true else startsExpression
  let rest (first : DictEntry) : Read Expr := do
    if ← takeOp "," then
      if ← takeOp "\x7d" then return .dict start [first]
      if !(← entryStarts) then stuck
      let (more, _) ← commaList r.dictEntry entryStarts
      r.close "\x7d"
      return .dict start (first :: more)
    r.close "\x7d"
    return .dict start [first]
  if ← atOp "**" then rest (← r.dictEntry)
  else
    let first ← r.starredOr r.named
    if ← atOp ":" then
      let value ← r.dictValue
      if ← atName "for" then
        let cs ← r.clauses
        r.close "\x7d"
        return .comprehension start .dict first (some value) cs
      rest (.entry (some first) value)
    else if ← atName "for" then
      let cs ← r.clauses
      r.close "\x7d"
      return .comprehension start .set first none cs
    else if ← takeOp "," then
      if ← takeOp "\x7d" then return .set start [first]
      if !(← startsItem) then stuck
      let (more, _) ← commaList (r.starredOr r.named) startsItem
      r.close "\x7d"
      return .set start (first :: more)
    else
      r.close "\x7d"
      return .set start [first]

def atom (r : Rules) : Read Expr := do
  let t ← peek
  match t.kind with
  | .name "None" => advance; return .literal t.start .none
  | .name "True" => advance; return .literal t.start (.bool true)
  | .name "False" => advance; return .literal t.start (.bool false)
  | .name s => if keywords.contains s then stuck else advance; return .name t.start s
  | .number s => advance; return .literal t.start (numberLiteral s)
  | .string _ _ _ => r.strings
  | .op "(" => r.parenthesized
  | .op "[" => r.listDisplay
  | .op "\x7b" => r.braces
  | .op "..." => advance; return .literal t.start .ellipsis
  | _ => stuck

structure ArgumentsRead where
  arguments : List Argument := []
  named : Bool := false
  spreadNamed : Bool := false
  /-- The message about the first argument out of order, and where it belongs if not at the end. -/
  misplaced : Option (String × Option Pos) := none
  done : Bool := false

def argumentName : Read (Option String) := do
  match (← peek).kind with
  | .name s =>
    if keywords.contains s && !(["True", "False", "None"].contains s) then return none
    else if (← peekNext).kind == .op "=" then return some s
    else return none
  | _ => return none

def argument (r : Rules) (open_ start : Pos) (a : ArgumentsRead) : Read ArgumentsRead := do
  let t ← peek
  if ← takeOp "*" then
    let e ← r.expression
    let misplaced := if a.misplaced.isNone && a.spreadNamed then
      some ("iterable argument unpacking follows keyword argument unpacking", some start)
      else a.misplaced
    return { a with arguments := .spread e :: a.arguments, misplaced }
  if ← takeOp "**" then
    return { a with
      arguments := .spreadNamed (← r.expression) :: a.arguments, spreadNamed := true }
  match ← argumentName with
  | some s =>
    if keywords.contains s then failAt ("cannot assign to " ++ s) t.start
    advance
    advance
    return { a with arguments := .named t.start s (← r.expression) :: a.arguments, named := true }
  | none =>
    let e ← r.namedOr
    if ← atName "for" then
      let alone := a.arguments.isEmpty
      let cs ← r.clauses
      let last ← atOp ")"
      if alone && last then
        return { a with arguments := [.plain (.comprehension open_ .generator e none cs)] }
      failAt "Generator expression must be parenthesized" e.pos
    if ← atOp "=" then
      failAt "expression cannot contain assignment, perhaps you meant \"==\"?" e.pos
    let misplaced := if a.misplaced.isSome then a.misplaced
      else if a.spreadNamed then
        some ("positional argument follows keyword argument unpacking", none)
      else if a.named then some ("positional argument follows keyword argument", none)
      else none
    return { a with arguments := .plain e :: a.arguments, misplaced }

/-- The arguments of a call, after its opening bracket and with the closing one. -/
def arguments (r : Rules) (open_ : Pos) : Read (List Argument) := do
  let start ← here
  let a ← repeatWith (fun (a : ArgumentsRead) => do
    if a.done then return none
    if ← atOp ")" then return some { a with done := true }
    let a ← r.argument open_ start a
    if ← takeOp "," then return some a
    return some { a with done := true }) (← budget) {}
  if ← atOp ")" then
    match a.misplaced with
    | some (message, pos) => failAt message (pos.getD (← here))
    | none => advance; return a.arguments.reverse
  else r.missingComma

def sliceItem (r : Rules) : Read Expr := do
  let start ← here
  let part : Read (Option Expr) := do
    if (← atOp ":") || (← atOp "]") || (← atOp ",") then return none else return some (← r.expression)
  if ← atOp ":" then
    advance
    let stop ← part
    let step ← if ← takeOp ":" then part else pure none
    return .slice start none stop step
  let first ← r.starredOr r.named
  if ← takeOp ":" then
    let stop ← part
    let step ← if ← takeOp ":" then part else pure none
    return .slice start (some first) stop step
  return first

def subscriptIndex (r : Rules) : Read Expr := do
  let start ← here
  let starts : Read Bool := do
    if ← atOp ":" then return true else startsItem
  let (items, comma) ← commaList r.sliceItem starts
  r.close "]"
  match items, comma with
  | [e], false => return e
  | items, _ => return .tuple start items

def primary (r : Rules) : Read Expr := do
  let start ← here
  let first ← r.atom
  repeatWith (fun e => do
    let t ← peek
    match t.kind with
    | .op "." =>
      advance
      let namePos ← here
      return some (.member start namePos e (← identifier))
    | .op "(" =>
      advance
      return some (.call start e (← r.arguments t.start))
    | .op "[" =>
      advance
      return some (.subscript start e (← r.subscriptIndex))
    | _ => return none) (← budget) first

def power (r : Rules) : Read Expr := do
  let start ← here
  let base ← r.primary
  if ← takeOp "**" then return .binary start .power base (← r.factor) else return base

def factorStep (r : Rules) : Read Expr := do
  let t ← peek
  match t.kind with
  | .op "-" => advance; return .unary t.start .negative (← r.factor)
  | .op "+" => advance; return .unary t.start .positive (← r.factor)
  | .op "~" => advance; return .unary t.start .invert (← r.factor)
  | _ => r.power

def compareOp? : Read (Option CompareOp) := do
  match (← peek).kind with
  | .op "==" => advance; return some .eq
  | .op "!=" => advance; return some .ne
  | .op "<" => advance; return some .lt
  | .op "<=" => advance; return some .le
  | .op ">" => advance; return some .gt
  | .op ">=" => advance; return some .ge
  | .name "in" => advance; return some .within
  | .name "not" =>
    if (← peekNext).kind == .name "in" then
      advance
      advance
      return some .notWithin
    else return none
  | .name "is" =>
    advance
    if ← takeName "not" then return some .notSame else return some .same
  | _ => return none

def comparison (r : Rules) : Read Expr := do
  let start ← here
  let first ← r.bitOr
  let rest ← repeatWith (fun rest => do
    match ← compareOp? with
    | some op => return some (.comparison op (← r.bitOr) :: rest)
    | none => return none) (← budget) []
  if rest.isEmpty then return first else return .compare start first rest.reverse

def inversionStep (r : Rules) : Read Expr := do
  let start ← here
  if ← takeName "not" then return .unary start .not (← r.inversion) else r.comparison

end Rules

structure ParametersRead where
  parameters : List Parameter := []
  /-- Whether a star was passed, and whether it awaits a parameter after it. -/
  starred : Bool := false
  bare : Option Pos := none
  defaulted : Bool := false
  slashed : Bool := false
  /-- Whether the parameter was read that no other may follow. -/
  last : Bool := false
  done : Bool := false

namespace Rules

def parameter (r : Rules) (annotated : Bool) (p : ParametersRead) : Read ParametersRead := do
  let t ← peek
  let annotation : Read (Option Expr) := do
    if !annotated then return none
    if ← takeOp ":" then return some (← r.expression) else return none
  if ← takeOp "/" then
    if p.starred then failAt "/ must be ahead of *" t.start
    if p.parameters.isEmpty then failAt "at least one argument must precede /" t.start
    if p.slashed then failAt "/ may appear only once" t.start
    let earlier := p.parameters.map fun
      | .parameter pos _ name a d => .parameter pos .positional name a d
    return { p with parameters := earlier, slashed := true }
  if ← takeOp "**" then
    let pos ← here
    let name ← identifier
    let a ← annotation
    if ← atOp "=" then failAt "var-keyword argument cannot have default value" (← here)
    return { p with parameters := .parameter pos .keywords name a none :: p.parameters, last := true }
  if ← atOp "*" then
    if p.starred then failAt "* argument may appear only once" t.start
    advance
    if ← atOp "," then return { p with starred := true, bare := some t.start }
    if (← atOp ")") || (← atOp ":") then
      failAt "named arguments must follow bare *" t.start
    let pos ← here
    let name ← identifier
    let a ← annotation
    if ← atOp "=" then failAt "var-positional argument cannot have default value" (← here)
    return { p with parameters := .parameter pos .rest name a none :: p.parameters, starred := true }
  let name ← identifier
  let a ← annotation
  let default ← if ← takeOp "=" then pure (some (← r.expression)) else pure none
  if !p.starred && p.defaulted && default.isNone then
    failAt "non-default argument follows default argument" t.start
  let kind := if p.starred then ParameterKind.keyword else .regular
  return { p with
    parameters := .parameter t.start kind name a default :: p.parameters, bare := none
    defaulted := p.defaulted || default.isSome }

def parameters (r : Rules) (annotated : Bool) (stop : String) : Read (List Parameter) := do
  let p ← repeatWith (fun (p : ParametersRead) => do
    if ← atOp stop then return none
    if p.done then return none
    if p.last then
      if isIdentifier (← peek).kind || (← atOp "*") || (← atOp "**") || (← atOp "/") then
        failAt "arguments cannot follow var-keyword argument" (← here)
      stuck
    let p ← r.parameter annotated p
    if ← takeOp "," then return some p
    if ← atOp stop then return some { p with done := true }
    stuck) (← budget) {}
  match p.bare with
  | some pos => failAt "named arguments must follow bare *" pos
  | none => return p.parameters.reverse

def expressionStep (r : Rules) : Read Expr := do
  let start ← here
  if ← takeName "lambda" then
    let ps ← r.parameters false ":"
    expectOp ":"
    return .lambda start ps (← r.expression)
  let index := (← get).index
  let first ← r.disjunction
  modify fun s => { s with operandIndex := index }
  if ← takeName "if" then
    let test ← r.disjunction
    if ← takeName "else" then return .conditional start test first (← r.expression)
    if ← atOp ":" then stuck
    failAt "expected 'else' after 'if' expression" start
  return first

def step (next : Unit → Rules) : Rules :=
  let r : Rules := ⟨do (next ()).expression, do (next ()).factor, do (next ()).inversion⟩
  ⟨r.expressionStep, r.factorStep, r.inversionStep⟩

def nested : Nat → Rules
  | 0 => ⟨stuck, stuck, stuck⟩
  | n + 1 => step fun _ => nested n

def expressions (r : Rules) : Read Expr := r.itemsOr r.expression

def values (r : Rules) : Read Expr := do
  let start ← here
  if ← takeName "yield" then
    if ← takeName "from" then return .yieldFrom start (← r.expression)
    if ← startsItem then return .yield start (some (← r.expressions)) else return .yield start none
  else r.expressions

end Rules

end Stencil.Script
