import Stencil.Script.Lexer
import Stencil.Script.Syntax

/-!
Reading syntax from tokens. A reader looks at one token at a time and remembers the furthest one it
has looked at: where no rule says more, that token is the one that cannot continue the text.
-/

namespace Stencil.Script

inductive ReadError where
  /-- The furthest token does not continue the text. -/
  | stuck
  /-- The tokens themselves end in a fault. -/
  | token (fault : SyntaxFault)
  /-- A rule of the grammar is broken in a known way. -/
  | rule (fault : SyntaxFault)

structure ReadState where
  stream : TokenStream
  index : Nat := 0
  furthest : Nat := 0
  /-- How many brackets are open. -/
  depth : Nat := 0
  /-- The first token of the last expression that could end here. -/
  operandIndex : Nat := 0
  /-- Lines and texts of warnings, last first. -/
  warnings : List (Nat × String) := []

abbrev Read := ExceptT ReadError (StateM ReadState)

namespace Read

def tokenAt (i : Nat) : Read Token := do
  let s ← get
  match s.stream.tokens[i]? with
  | some t =>
    modify fun s => { s with furthest := max s.furthest i }
    return t
  | none =>
    match s.stream.ending with
    | .fault f | .halted f _ => throw (.token f)
    | .complete => return s.stream.tokens.back?.getD default

def peek : Read Token := do tokenAt (← get).index

def peekNext : Read Token := do tokenAt ((← get).index + 1)

def stuck {α : Type} : Read α := throw .stuck

def advance : Read Unit := do
  let t ← peek
  let change := match t.kind with
    | .op "(" | .op "[" | .op "\x7b" => fun (d : Nat) => d + 1
    | .op ")" | .op "]" | .op "\x7d" => fun d => d - 1
    | _ => id
  modify fun s => { s with index := s.index + 1, depth := change s.depth }

def here : Read Pos := do return (← peek).start

def atOp (text : String) : Read Bool := do return (← peek).kind == .op text

def atName (text : String) : Read Bool := do return (← peek).kind == .name text

def takeOp (text : String) : Read Bool := do
  if ← atOp text then advance; return true
  else return false

def takeName (text : String) : Read Bool := do
  if ← atName text then advance; return true
  else return false

def expectOp (text : String) : Read Unit := do
  if !(← takeOp text) then stuck

def expectName (text : String) : Read Unit := do
  if !(← takeName text) then stuck

def atNewline : Read Bool := do return (← peek).kind == .newline

def failAt {α : Type} (message : String) (pos : Pos) : Read α :=
  throw (.rule (faultAt message pos))

def failHere {α : Type} (message : String) (kind : FaultKind := .general) : Read α := do
  let s ← get
  let t := s.stream.tokens[s.furthest]?.getD default
  throw (.rule ⟨kind, message, t.start.line, t.offset⟩)

def warn (line : Nat) (text : String) : Read Unit :=
  modify fun s => { s with warnings := (line, text) :: s.warnings }

def repeatWith {α : Type} (step : α → Read (Option α)) : Nat → α → Read α
  | 0, a => return a
  | n + 1, a => do
    match ← step a with
    | some b => repeatWith step n b
    | none => return a

def budget : Read Nat := do
  let s ← get
  return s.stream.tokens.size - s.index + 1

/-- Runs a reader and takes back everything it did, unless the tokens themselves are at fault. -/
def attempt {α : Type} (r : Read α) : Read (Option α) := do
  let s ← get
  match (r.run s : Except ReadError α × ReadState) with
  | (.error (.token f), _) => throw (.token f)
  | (.ok a, _) => return some a
  | (.error _, _) => return none

def attemptPlain {α : Type} (r : Read α) : Read (Except ReadError α) := do
  let s ← get
  let (result, s) := (r.run s : Except ReadError α × ReadState)
  set s
  return result

/-- Items with commas between and perhaps after them, as long as one can start; whether a comma
came is part of the answer. -/
def commaList {α : Type} (item : Read α) (starts : Read Bool) : Read (List α × Bool) := do
  let first ← item
  let n ← budget
  let (items, comma) ← repeatWith (fun (items, comma) => do
    if comma then
      if ← starts then
        let a ← item
        return some (a :: items, ← takeOp ",")
      else return none
    else return none) n ([first], ← takeOp ",")
  return (items.reverse, comma || items.length > 1)

end Read

def keywords : List String :=
  ["False", "None", "True", "and", "as", "assert", "async", "await", "break", "class", "continue",
   "def", "del", "elif", "else", "except", "finally", "for", "from", "global", "if", "import", "in",
   "is", "lambda", "nonlocal", "not", "or", "pass", "raise", "return", "try", "while", "with",
   "yield"]

def softKeywords : List String := ["match", "case", "_"]

namespace Read

def identifier : Read String := do
  match (← peek).kind with
  | .name s => if keywords.contains s then stuck else advance; return s
  | _ => stuck

def isIdentifier (k : TokenKind) : Bool :=
  match k with
  | .name s => !keywords.contains s
  | _ => false

def startsExpression : Read Bool := do
  match (← peek).kind with
  | .name s => return !keywords.contains s
      || ["False", "None", "True", "await", "lambda", "not"].contains s
  | .number _ | .string _ _ _ => return true
  | .op s => return ["(", "[", "\x7b", "+", "-", "~", "..."].contains s
  | _ => return false

def startsItem : Read Bool := do
  if ← atOp "*" then return true else startsExpression

end Read

end Stencil.Script
