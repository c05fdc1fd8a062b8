import Stencil.Script.Event

/-!
Checks of a whole text before it runs. Future imports are looked at first, then what every scope does
with its names, and last the statements that stand where they mean nothing; the first fault ends the
check. Warnings belong to the last stage and count up to its first fault.
-/

namespace Stencil.Script

structure Misuse where
  message : String
  pos : Pos
  deriving DecidableEq, Repr

structure Names where
  used : List String := []
  bound : List String := []
  annotated : List String := []
  parameters : List String := []
  globals : List (String × Pos) := []
  nonlocals : List (String × Pos) := []
  deriving Inhabited

namespace Names

def declares (n : Names) (name : String) : Bool :=
  n.globals.any (·.1 == name) || n.nonlocals.any (·.1 == name)

def locals (n : Names) : List String :=
  ((n.parameters ++ n.bound ++ n.annotated).filter fun name =>
    !n.declares name).eraseDups

def objection? (n : Names) (style name : String) : Option String :=
  let quotedName := "'" ++ name ++ "'"
  if n.parameters.contains name then
    some ("name " ++ quotedName ++ " is parameter and " ++ style)
  else if n.used.contains name then
    some ("name " ++ quotedName ++ " is used prior to " ++ style ++ " declaration")
  else if n.annotated.contains name then
    some ("annotated name " ++ quotedName ++ " can't be " ++ style)
  else if n.bound.contains name then
    some ("name " ++ quotedName ++ " is assigned to before " ++ style ++ " declaration")
  else none

def declareGlobals (n : Names) (pos : Pos) : List String → Except Misuse Names
  | [] => .ok n
  | name :: rest =>
    match n.objection? "global" name with
    | some message => .error ⟨message, pos⟩
    | none => declareGlobals { n with globals := n.globals ++ [(name, pos)] } pos rest

def declareNonlocals (n : Names) (pos : Pos) : List String → Except Misuse Names
  | [] => .ok n
  | name :: rest =>
    match n.objection? "nonlocal" name with
    | some message => .error ⟨message, pos⟩
    | none => declareNonlocals { n with nonlocals := n.nonlocals ++ [(name, pos)] } pos rest

def annotate (n : Names) (kind : ScopeKind) (name : String) (pos : Pos) : Except Misuse Names :=
  if kind != .module && n.globals.any (·.1 == name) then
    .error ⟨"annotated name '" ++ name ++ "' can't be global", pos⟩
  else if kind != .module && n.nonlocals.any (·.1 == name) then
    .error ⟨"annotated name '" ++ name ++ "' can't be nonlocal", pos⟩
  else .ok { n with annotated := name :: n.annotated }

mutual

/-- Follows what a scope does with its names; scopes inside it are followed on their own. -/
def visit (kind : ScopeKind) (n : Names) : Event → Except Misuse Names
  | .use name => .ok { n with used := name :: n.used }
  | .bind name => .ok { n with bound := name :: n.bound }
  | .annotate name pos => n.annotate kind name pos
  | .parameter name pos =>
    if n.parameters.contains name then
      .error ⟨"duplicate argument '" ++ name ++ "' in function definition", pos⟩
    else .ok { n with parameters := name :: n.parameters }
  | .globals names pos => n.declareGlobals pos names
  | .nonlocals names pos => n.declareNonlocals pos names
  | .importAll pos =>
    if kind == .module then .ok n
    else .error ⟨"import * only allowed at module level", pos⟩
  | .fault _ _ => .ok n
  | .warning _ _ | .yielding => .ok n
  | .silent events => visitAll kind n events
  | .scope inner events => do
    let _ ← visitAll inner {} events
    return n

def visitAll (kind : ScopeKind) (n : Names) : List Event → Except Misuse Names
  | [] => .ok n
  | e :: es => do
    let n ← visit kind n e
    visitAll kind n es

end

def ofEvents (kind : ScopeKind) (events : List Event) : Names :=
  match visitAll kind {} events with
  | .ok n => n
  | .error _ => {}

def visible (n : Names) (kind : ScopeKind) (outer : List String) : List String :=
  if kind == .function then
    (n.locals ++ outer).filter fun name => !n.globals.any (·.1 == name)
  else outer

mutual

/-- The first name that is looked for in the functions around a scope and is not there. -/
def unbound? (outer : List String) : Event → Option Misuse
  | .scope kind events =>
    let n := ofEvents kind events
    let lost := n.nonlocals.findSome? fun (name, pos) =>
      if let some other := n.globals.lookup name then
        some ⟨"name '" ++ name ++ "' is nonlocal and global", if other.line ≤ pos.line then other else pos⟩
      else if outer.contains name then none
      else some ⟨"no binding for nonlocal '" ++ name ++ "' found", pos⟩
    match lost with
    | some misuse => some misuse
    | none => unboundIn? (n.visible kind outer) events
  | .silent events => unboundIn? outer events
  | _ => none

def unboundIn? (outer : List String) : List Event → Option Misuse
  | [] => none
  | e :: es =>
    match unbound? outer e with
    | some misuse => some misuse
    | none => unboundIn? outer es

end

def misuse? (events : List Event) : Option Misuse :=
  match visitAll .module {} events with
  | .error misuse => some misuse
  | .ok n =>
    match n.nonlocals with
    | (_, pos) :: _ => some ⟨"nonlocal declaration not allowed at module level", pos⟩
    | [] => unboundIn? [] events

end Names

mutual

def Event.flat : Event → List Event
  | .scope _ events => Event.flatAll events
  | .silent _ => []
  | e => [e]

def Event.flatAll : List Event → List Event
  | [] => []
  | e :: es => Event.flat e ++ Event.flatAll es

end

/-- What a check found: warnings with their lines from one, and the fault that ended it. -/
structure Verdict where
  warnings : List (Nat × String) := []
  fault : Option Misuse := none
  deriving Repr

namespace Verdict

def ofEvents : List Event → Verdict
  | [] => {}
  | .fault message pos :: _ => { fault := some ⟨message, pos⟩ }
  | .warning text line :: rest =>
    let v := ofEvents rest
    { v with warnings := (line, text) :: v.warnings }
  | _ :: rest => ofEvents rest

end Verdict

def futureFeatures : List String :=
  ["nested_scopes", "generators", "division", "absolute_import", "with_statement",
   "print_function", "unicode_literals", "barry_as_FLUFL", "generator_stop", "annotations"]

def futureFault? (pos : Pos) : List (String × Option String) → Option Misuse
  | [] => none
  | (name, _) :: rest =>
    if futureFeatures.contains name then futureFault? pos rest
    else if name == "braces" then some ⟨"not a chance", pos⟩
    else some ⟨"future feature " ++ name ++ " is not defined", pos⟩

def futureLine (line : Nat) : List Stmt → Except Misuse Nat
  | .importNames pos 0 module names :: rest =>
    if module == Event.future then
      match futureFault? pos names with
      | some misuse => .error misuse
      | none => futureLine pos.line rest
    else .ok line
  | .importAll pos _ 0 module :: _ =>
    if module == Event.future then .error ⟨"future feature * is not defined", pos⟩ else .ok line
  | _ => .ok line

def afterDoc : List Stmt → List Stmt
  | body@(first :: rest) => if (Stmt.doc? [first]).isSome then rest else body
  | [] => []

def Tree.check (t : Tree) (bare : Bool) : Verdict :=
  match futureLine 0 (afterDoc t.body) with
  | .error misuse => { fault := some misuse }
  | .ok futureLine =>
    let events := Event.ofBody { scope := .module, futureLine, bare } t.body
    match Names.misuse? events with
    | some misuse => { fault := some misuse }
    | none => .ofEvents (Event.flatAll events)

end Stencil.Script
