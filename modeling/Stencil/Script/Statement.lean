import Stencil.Script.Expression

/-!
Reading statements: lines of simple statements, and headers with the blocks under them.
-/

namespace Stencil.Script

open Read Rules

/-- Reads the block under a header, described by its text and its line for messages. -/
structure Blocks where
  rules : Rules
  block : String → Nat → Read (List Stmt)

namespace Blocks

def augmented : List (String × BinaryOp) :=
  [("+=", .add), ("-=", .sub), ("*=", .mul), ("/=", .divide), ("//=", .floorDivide), ("%=", .mod),
   ("**=", .power), ("@=", .matrix), ("&=", .bitAnd), ("|=", .bitOr), ("^=", .bitXor),
   ("<<=", .shiftLeft), (">>=", .shiftRight)]

/-- Fails for targets that cannot be assigned to, of which the first was read before an equals
sign that is next. -/
def refuseTargets (r : Rules) (bare : Bool) (e : Expr) : Read Unit := do
  match invalidTarget? false targetDepth e with
  | none => pure ()
  | some bad =>
    let (last, named) := match e with
      | .tuple _ items => if bare then (items.getLast?.getD e, true) else (e, false)
      | e => (e, false)
    r.refuseEquals last named
    match bad with
    | .yield pos _ | .yieldFrom pos _ => failAt "assignment to yield expression not possible" pos
    | _ => failAt ("cannot assign to " ++ bad.description) bad.pos

def annotation (r : Rules) (start : Pos) (bare : Bool) (target : Expr) : Read Stmt := do
  match target with
  | .name _ _ | .member _ _ _ _ | .subscript _ _ _ => pure ()
  | .list pos _ => failAt "only single target (not list) can be annotated" pos
  | .tuple pos _ => failAt "only single target (not tuple) can be annotated" pos
  | e => failAt "illegal target for annotation" e.pos
  let kind ← r.expression
  let value ← if ← takeOp "=" then pure (some (← r.values)) else pure none
  let simple := match target with
    | .name _ _ => bare
    | _ => false
  return .annotate start target kind value simple

def expressionStatement (r : Rules) : Read Stmt := do
  let start ← here
  let bare := !(← atOp "(")
  let first ← r.values
  let t ← peek
  match t.kind with
  | .op "=" =>
    refuseTargets r bare first
    let values ← repeatWith (fun values => do
      if ← atOp "=" then
        match values with
        | last :: _ :: _ => refuseTargets r false last
        | _ => pure ()
        advance
        return some ((← r.values) :: values)
      else return none) (← budget) [first]
    match values with
    | value :: targets =>
      match targets.findSome? (invalidTarget? false targetDepth) with
      | some bad => failAt ("cannot assign to " ++ bad.description) bad.pos
      | none => return .assign start targets.reverse value
    | [] => stuck
  | .op ":" =>
    match first with
    | .yield _ _ | .yieldFrom _ _ => stuck
    | _ =>
      advance
      annotation r start bare first
  | .op o =>
    match augmented.lookup o with
    | some op =>
      match first with
      | .name _ _ | .member _ _ _ _ | .subscript _ _ _ =>
        advance
        return .augment start first op (← r.values)
      | e =>
        failAt ("'" ++ e.description ++ "' is an illegal expression for augmented assignment") e.pos
    | none => return .expr start first
  | _ =>
    match first with
    | .name pos w =>
      if (w == "print" || w == "exec") && (← startsExpression) then
        match ← attempt r.expressions with
        | some _ =>
          failAt ("Missing parentheses in call to '" ++ w ++ "'. Did you mean " ++ w ++ "(...)?") pos
        | none => pure ()
      return .expr start first
    | _ => return .expr start first

def dottedName : Read String := do
  let first ← identifier
  repeatWith (fun name => do
    if ← takeOp "." then return some (name ++ "." ++ (← identifier)) else return none)
    (← budget) first

def asName : Read (Option String) := do
  if ← takeName "as" then return some (← identifier) else return none

def importStatement (start : Pos) : Read Stmt := do
  let item : Read (String × Option String) := do
    let name ← dottedName
    return (name, ← asName)
  let first ← item
  let items ← repeatWith (fun items => do
    if ← takeOp "," then return some ((← item) :: items) else return none) (← budget) [first]
  return .importModules start items.reverse

def dots : Read Nat := do
  repeatWith (fun n => do
    if ← takeOp "." then return some (n + 1)
    else if ← takeOp "..." then return some (n + 3)
    else return none) (← budget) 0

def importFrom (start : Pos) : Read Stmt := do
  let level ← dots
  let module ← if level = 0 then dottedName
    else if isIdentifier (← peek).kind then dottedName else pure ""
  expectName "import"
  let t ← peek
  if ← takeOp "*" then return .importAll start t.start level module
  let enclosed ← takeOp "("
  let item : Read (String × Option String) := do
    let name ← identifier
    return (name, ← asName)
  let (items, _) ← commaList item (do return isIdentifier (← peek).kind)
  if enclosed then expectOp ")"
  else if (← atNewline) then
    let s ← get
    if (s.stream.tokens[s.index - 1]?.map Token.kind) == some (.op ",") then
      failHere "trailing comma not allowed without surrounding parentheses"
  return .importNames start level module items

def names : Read (List String) := do
  let first ← identifier
  let items ← repeatWith (fun items => do
    if ← takeOp "," then return some ((← identifier) :: items) else return none)
    (← budget) [first]
  return items.reverse

def deleteStatement (r : Rules) (start : Pos) : Read Stmt := do
  let e ← r.itemsOr r.expression
  match invalidTarget? true targetDepth e with
  | some bad => failAt ("cannot delete " ++ bad.description) bad.pos
  | none =>
    match e with
    | .tuple pos items => if pos == (items.head?.map Expr.pos).getD pos
        then return .delete start items else return .delete start [e]
    | e => return .delete start [e]

def ended : Read Bool := do
  return (← atNewline) || (← atOp ";")

def simple (r : Rules) : Read Stmt := do
  let t ← peek
  match t.kind with
  | .name "pass" => advance; return .pass t.start
  | .name "break" => advance; return .breakLoop t.start
  | .name "continue" => advance; return .continueLoop t.start
  | .name "return" =>
    advance
    if ← startsItem then return .ret t.start (some (← r.expressions)) else return .ret t.start none
  | .name "raise" =>
    advance
    if ← startsExpression then
      let error ← r.expression
      let cause ← if ← takeName "from" then pure (some (← r.expression)) else pure none
      return .raise t.start (some error) cause
    else return .raise t.start none none
  | .name "global" => advance; return .globals t.start (← names)
  | .name "nonlocal" => advance; return .nonlocals t.start (← names)
  | .name "del" => advance; deleteStatement r t.start
  | .name "assert" =>
    advance
    let test ← r.expression
    let message ← if ← takeOp "," then pure (some (← r.expression)) else pure none
    return .assert t.start test message
  | .name "import" => advance; importStatement t.start
  | .name "from" => advance; importFrom t.start
  | _ => expressionStatement r

def simpleLine (r : Rules) : Read (List Stmt) := do
  let first ← simple r
  let (items, _) ← repeatWith (fun (items, done) => do
    if done then return none
    if ← takeOp ";" then
      if ← atNewline then return some (items, true)
      return some ((← simple r) :: items, false)
    return none) (← budget) ([first], false)
  if !(← atNewline) then stuck
  advance
  return items.reverse

def headerColon : Read Unit := do
  if ← takeOp ":" then return
  if ← atNewline then failHere "expected ':'"
  stuck

def forcedColon : Read Unit := do
  if !(← takeOp ":") then failAt "expected ':'" (← here)

def otherwise (b : Blocks) : Read (List Stmt) := do
  let t ← peek
  if ← takeName "else" then
    forcedColon
    b.block "'else' statement" t.start.line
  else return []

def alternatives (b : Blocks) : Nat → Read (List Stmt)
  | 0 => stuck
  | n + 1 => do
    let t ← peek
    if ← takeName "elif" then
      let test ← b.rules.named
      headerColon
      let yes ← b.block "'elif' statement" t.start.line
      return [.branch t.start test yes (← alternatives b n)]
    else otherwise b

def ifStatement (b : Blocks) (start : Pos) : Read Stmt := do
  let test ← b.rules.named
  headerColon
  let yes ← b.block "'if' statement" start.line
  return .branch start test yes (← alternatives b (← budget))

def whileStatement (b : Blocks) (start : Pos) : Read Stmt := do
  let test ← b.rules.named
  headerColon
  let body ← b.block "'while' statement" start.line
  return .whileLoop start test body (← otherwise b)

def forStatement (b : Blocks) (start : Pos) : Read Stmt := do
  let target ← b.rules.targets
  expectName "in"
  let source ← b.rules.expressions
  headerColon
  let body ← b.block "'for' statement" start.line
  return .forLoop start target source body (← otherwise b)

def handler (b : Blocks) (start : Pos) : Read Handler := do
  if ← takeOp ":" then
    return .handler start none none (← b.block "'except' statement" start.line)
  if ← atNewline then failHere "expected ':'"
  let kinds ← b.rules.expression
  if ← atOp "," then failAt "multiple exception types must be parenthesized" kinds.pos
  let name ← asName
  headerColon
  return .handler start (some kinds) name (← b.block "'except' statement" start.line)

def tryStatement (b : Blocks) (start : Pos) : Read Stmt := do
  forcedColon
  let body ← b.block "'try' statement" start.line
  let handlers ← repeatWith (fun handlers => do
    let t ← peek
    if ← takeName "except" then return some ((← handler b t.start) :: handlers) else return none)
    (← budget) []
  let other ← if handlers.isEmpty then pure [] else otherwise b
  let t ← peek
  let final ← if ← takeName "finally" then
      forcedColon
      b.block "'finally' statement" t.start.line
    else pure []
  if handlers.isEmpty && final.isEmpty then failHere "expected 'except' or 'finally' block"
  return .attempt start body handlers.reverse other final

def withStatement (b : Blocks) (start : Pos) : Read Stmt := do
  let item : Read (Expr × Option Expr) := do
    let e ← b.rules.expression
    if ← takeName "as" then
      let target ← b.rules.primary
      checkTarget target
      return (e, some target)
    else return (e, none)
  let first ← item
  let items ← repeatWith (fun items => do
    if ← takeOp "," then return some ((← item) :: items) else return none) (← budget) [first]
  headerColon
  return .within start items.reverse (← b.block "'with' statement" start.line)

def functionStatement (b : Blocks) (start : Pos) (decorators : List Expr) : Read Stmt := do
  let name ← identifier
  if !(← takeOp "(") then failAt "expected '('" (← here)
  let ps ← b.rules.parameters true ")"
  expectOp ")"
  let result ← if ← takeOp "->" then pure (some (← b.rules.expression)) else pure none
  forcedColon
  return .function start decorators name ps result (← b.block "function definition" start.line)

def classStatement (b : Blocks) (start : Pos) (decorators : List Expr) : Read Stmt := do
  let name ← identifier
  let t ← peek
  let args ← if ← takeOp "(" then b.rules.arguments t.start else pure []
  headerColon
  return .cls start decorators name args (← b.block "class definition" start.line)

def decorated (b : Blocks) : Read Stmt := do
  let decorators ← repeatWith (fun ds => do
    if ← takeOp "@" then
      let e ← b.rules.named
      if !(← atNewline) then stuck
      advance
      return some (e :: ds)
    else return none) (← budget) []
  let t ← peek
  if ← takeName "def" then functionStatement b t.start decorators.reverse
  else if ← takeName "class" then classStatement b t.start decorators.reverse
  else stuck

def statement (b : Blocks) : Read (List Stmt) := do
  let t ← peek
  match t.kind with
  | .name "if" => advance; return [← ifStatement b t.start]
  | .name "while" => advance; return [← whileStatement b t.start]
  | .name "for" => advance; return [← forStatement b t.start]
  | .name "try" => advance; return [← tryStatement b t.start]
  | .name "with" => advance; return [← withStatement b t.start]
  | .name "def" | .name "class" | .op "@" => return [← decorated b]
  | _ => simpleLine b.rules

def statements (b : Blocks) : Read (List Stmt) := do
  let found ← repeatWith (fun (found : List (List Stmt)) => do
    match (← peek).kind with
    | .dedent | .finish => return none
    | _ => return some ((← statement b) :: found)) (← budget) []
  return found.reverse.flatten

/-- The block under a header: the rest of its line, or the deeper lines after it. -/
def blockStep (b : Blocks) (what : String) (line : Nat) : Read (List Stmt) := do
  if ← atNewline then
    advance
    if (← peek).kind == .indent then
      advance
      let body ← statements b
      if (← peek).kind == .dedent then advance
      return body
    else
      failHere ("expected an indented block after " ++ what ++ " on line " ++ toString line)
        .indentation
  else simpleLine b.rules

def nested (rules : Rules) : Nat → Blocks
  | 0 => ⟨rules, fun _ _ => stuck⟩
  | n + 1 => ⟨rules, fun what line => blockStep (nested rules n) what line⟩

end Blocks

inductive ParseError where
  | nullCharacter
  | fault (fault : SyntaxFault)
  deriving DecidableEq, Repr

def ParseError.nullMessage : String := "source code string cannot contain null bytes"

/-- Faults of later tokens win over a fault of the grammar, and so does a bracket that was left
open on an earlier line. -/
def SyntaxFault.orLater (f : SyntaxFault) (s : ReadState) : SyntaxFault :=
  match s.stream.ending with
  | .fault g => g
  | .halted _ bracket =>
    let line := (s.stream.tokens[s.furthest]?.map fun t => t.start.line).getD 0
    match bracket with
    | some (c, pos) => if pos.line < line then neverClosed c pos else f
    | none => f
  | .complete => f

def ReadError.fault (s : ReadState) : ReadError → SyntaxFault
  | .token f => f
  | .rule f => f.orLater s
  | .stuck =>
    let t := s.stream.tokens[s.furthest]?.getD default
    match t.kind with
    | .indent => ⟨.indentation, "unexpected indent", t.start.line, t.offset⟩
    | .dedent => ⟨.indentation, "unexpected unindent", t.start.line, t.offset⟩
    | _ => SyntaxFault.orLater ⟨.general, "invalid syntax", t.start.line, t.offset⟩ s

structure ReadWarning where
  line : Nat
  text : String
  deriving DecidableEq, Repr

def parse (source : String) : Except ParseError Tree × List ReadWarning :=
  if source.toList.any fun c => c.toNat == 0 then (.error .nullCharacter, [])
  else
    let stream := tokenize (prepared source)
    let size := stream.tokens.size
    let program : Read (List Stmt) := do
      let body ← Blocks.statements (Blocks.nested (Rules.nested (4 * size + 16)) (size + 2))
      if (← peek).kind != .finish then stuck
      return body
    let (result, s) : Except ReadError (List Stmt) × ReadState := program.run { stream }
    let warnings := s.warnings.reverse.map fun (line, text) => ⟨line, text⟩
    match result with
    | .ok body => (.ok ⟨body⟩, warnings)
    | .error e => (.error (.fault (e.fault s)), warnings)

end Stencil.Script
