import Stencil.Script.Syntax

/-!
Events: what a body does with names, and what is noticed about it, in the order in which code is made
for it. One walk over the syntax yields the events; the rules about scopes and about misplaced
statements, the warnings, and the local names of a function are all read off them.
-/

namespace Stencil.Script

inductive ScopeKind where
  | module | cls | function
  deriving DecidableEq, Repr

inductive Event where
  | use (name : String)
  | bind (name : String)
  | annotate (name : String) (pos : Pos)
  | parameter (name : String) (pos : Pos)
  | globals (names : List String) (pos : Pos)
  | nonlocals (names : List String) (pos : Pos)
  | importAll (pos : Pos)
  | fault (message : String) (pos : Pos)
  | warning (text : String) (line : Nat)
  /-- Makes the function around it a generator. -/
  | yielding
  /-- Events that count for names only: no code is made for them. -/
  | silent (events : List Event)
  | scope (kind : ScopeKind) (events : List Event)
  deriving Inhabited

namespace Event

structure Place where
  scope : ScopeKind
  inLoop : Bool := false
  /-- The last line of the future imports at the top. -/
  futureLine : Nat := 0
  /-- Whether assertions are left out. -/
  bare : Bool := false

def kindOf? : Expr → Option String
  | .literal _ .none => some "NoneType"
  | .literal _ .ellipsis => some "ellipsis"
  | .literal _ (.bool _) => some "bool"
  | .literal _ (.int _) => some "int"
  | .literal _ (.float _) => some "float"
  | .literal _ (.text _) => some "str"
  | .literal _ (.bytes _) => some "bytes"
  | .tuple _ _ => some "tuple"
  | .list _ _ | .comprehension _ .list _ _ _ => some "list"
  | .dict _ _ | .comprehension _ .dict _ _ _ => some "dict"
  | .set _ _ | .comprehension _ .set _ _ _ => some "set"
  | .comprehension _ .generator _ _ _ => some "generator"
  | .joined _ _ => some "str"
  | .lambda _ _ _ => some "function"
  | _ => none

mutual

def isFoldedLiteral : Expr → Bool
  | .literal _ (.int _) | .literal _ (.float _) | .literal _ (.text _) | .literal _ (.bytes _) => true
  | .tuple _ items => areConstants items
  | .unary _ .not _ => false
  | .unary _ _ e => isFoldedLiteral e
  | .binary _ _ a b => isFoldedLiteral a && isFoldedLiteral b
  | _ => false

def areConstants : List Expr → Bool
  | [] => true
  | .literal _ _ :: rest => areConstants rest
  | e :: rest => isFoldedLiteral e && areConstants rest

end

def identityWarning (line : Nat) (flipped : Bool) : Expr → List Comparison → List Event
  | _, [] => []
  | left, .comparison op right :: rest =>
    let literal := isFoldedLiteral left || isFoldedLiteral right
    if (op == .same || op == .notSame) && literal then
      let negative := (op == .notSame) != (flipped && rest.isEmpty)
      [.warning (if negative then "\"is not\" with a literal. Did you mean \"!=\"?"
        else "\"is\" with a literal. Did you mean \"==\"?") line]
    else identityWarning line flipped right rest

def callWarning (line : Nat) (callee : Expr) : List Event :=
  match callee with
  | .lambda _ _ _ => []
  | e =>
    match kindOf? e with
    | some kind =>
      [.warning ("'" ++ kind ++ "' object is not callable; perhaps you missed a comma?") line]
    | none => []

def subscriptWarning (line : Nat) (object index : Expr) : List Event :=
  match kindOf? object with
  | none => []
  | some kind =>
    if ["NoneType", "ellipsis", "int", "bool", "float", "set", "generator", "function"].contains kind
    then [.warning ("'" ++ kind ++ "' object is not subscriptable; perhaps you missed a comma?") line]
    else if ["str", "bytes", "tuple", "list"].contains kind then
      match kindOf? index with
      | some other =>
        if other == "int" || other == "bool" then []
        else
          [.warning (kind ++ " indices must be integers or slices, not " ++ other
            ++ "; perhaps you missed a comma?") line]
      | none => []
    else []

def repeatedNames : List String → List Argument → List Event
  | _, [] => []
  | seen, .named pos name _ :: rest =>
    if seen.contains name then [.fault ("keyword argument repeated: " ++ name) pos]
    else repeatedNames (name :: seen) rest
  | seen, _ :: rest => repeatedNames seen rest

def parameterEvents : List Parameter → List Event
  | [] => []
  | .parameter pos _ name _ _ :: rest => .parameter name pos :: parameterEvents rest

def starFaults (pos : Pos) (items : List Expr) : List Event :=
  let stars := items.filter fun
    | .starred _ _ => true
    | _ => false
  if stars.length ≤ 1 then [] else [.fault "multiple starred expressions in assignment" pos]

inductive Role where
  | value
  /-- As an item of a display or an argument, where a star may stand. -/
  | item
  /-- As the operand of a negation, which reverses a single comparison. -/
  | negated
  deriving DecidableEq

mutual

def ofExpr (p : Place) (role : Role) : Expr → List Event
  | .literal _ _ => []
  | .name _ id => [.use id]
  | .joined _ parts => ofParts p parts
  | .tuple _ items | .list _ items | .set _ items => ofExprs p .item items
  | .dict _ entries => ofEntries p entries
  | .unary _ op e => ofExpr p (if op = .not then .negated else .value) e
  | .binary _ _ a b => ofExpr p .value a ++ ofExpr p .value b
  | .both _ items | .either _ items => ofExprs p .value items
  | .compare pos first rest =>
    identityWarning pos.line (role = .negated && rest.length == 1) first rest
      ++ ofExpr p .value first ++ ofComparisons p rest
  | .call pos callee args =>
    repeatedNames [] args ++ callWarning pos.line callee ++ ofExpr p .value callee
      ++ ofArguments p args
  | .member _ _ e _ => ofExpr p .value e
  | .subscript pos e index =>
    subscriptWarning pos.line e index ++ ofExpr p .value e ++ ofExpr p .value index
  | .slice _ a b c => ofOption p a ++ ofOption p b ++ ofOption p c
  | .lambda _ ps body =>
    ofDefaults p ps ++ [.scope .function (parameterEvents ps
      ++ ofExpr { p with scope := .function, inLoop := false } .value body)]
  | .conditional _ test yes no => ofExpr p .value test ++ ofExpr p .value yes ++ ofExpr p .value no
  | .starred pos e =>
    (if role = .item then [] else [.fault "can't use starred expression here" pos])
      ++ ofExpr p .value e
  | .comprehension _ _ element value clauses =>
    let inner : Place := { p with scope := .function, inLoop := false }
    .scope .function (ofClauses inner true clauses ++ ofExpr inner .item element
      ++ ofOption inner value) :: ofFirstSource p clauses
  | .yield pos value =>
    (if p.scope == .function then .yielding else .fault "'yield' outside function" pos)
      :: ofOption p value
  | .yieldFrom pos value =>
    (if p.scope == .function then .yielding else .fault "'yield' outside function" pos)
      :: ofExpr p .value value
  | .assign _ name value => ofExpr p .value value ++ [.bind name]

def ofExprs (p : Place) (role : Role) : List Expr → List Event
  | [] => []
  | e :: es => ofExpr p role e ++ ofExprs p role es

def ofOption (p : Place) : Option Expr → List Event
  | none => []
  | some e => ofExpr p .value e

def ofParts (p : Place) : List TextPart → List Event
  | [] => []
  | part :: rest => ofPart p part ++ ofParts p rest

def ofPart (p : Place) : TextPart → List Event
  | .text _ => []
  | .field e _ layout => ofExpr p .value e ++ ofParts p layout

def ofEntries (p : Place) : List DictEntry → List Event
  | [] => []
  | .entry key value :: rest => ofOption p key ++ ofExpr p .value value ++ ofEntries p rest

def ofComparisons (p : Place) : List Comparison → List Event
  | [] => []
  | .comparison _ e :: rest => ofExpr p .value e ++ ofComparisons p rest

def ofArguments (p : Place) : List Argument → List Event
  | [] => []
  | arg :: rest => ofArgument p arg ++ ofArguments p rest

def ofArgument (p : Place) : Argument → List Event
  | .plain e | .spread e | .named _ _ e | .spreadNamed e => ofExpr p .value e

def ofDefaults (p : Place) : List Parameter → List Event
  | [] => []
  | .parameter _ _ _ annotation default :: rest =>
    ofOption p default ++ ofOption p annotation ++ ofDefaults p rest

/-- The clauses of a comprehension inside its scope; the first source belongs outside. -/
def ofClauses (p : Place) (first : Bool) : List Clause → List Event
  | [] => []
  | .clause target source conditions :: rest =>
    (if first then [] else ofExpr p .value source) ++ ofTarget p false target
      ++ ofExprs p .value conditions ++ ofClauses p false rest

def ofFirstSource (p : Place) : List Clause → List Event
  | [] => []
  | .clause _ source _ :: _ => ofExpr p .value source

def ofTarget (p : Place) (listed : Bool) : Expr → List Event
  | .name _ id => [.bind id]
  | .tuple pos items | .list pos items => starFaults pos items ++ ofTargets p true items
  | .member _ _ e _ => ofExpr p .value e
  | .subscript _ e index => ofExpr p .value e ++ ofExpr p .value index
  | .starred pos e =>
    (if listed then [] else [.fault "starred assignment target must be in a list or tuple" pos])
      ++ ofTarget p false e
  | _ => []

def ofTargets (p : Place) (listed : Bool) : List Expr → List Event
  | [] => []
  | e :: es => ofTarget p listed e ++ ofTargets p listed es

end

def topName (name : String) : String :=
  String.ofList (name.toList.takeWhile (· != '.'))

def ofContexts (p : Place) : List (Expr × Option Expr) → List Event
  | [] => []
  | (e, target) :: rest =>
    ofExpr p .value e ++ (match target with
      | some t => ofTarget p false t
      | none => []) ++ ofContexts p rest

def future : String := "__future__"

def lateFuture (p : Place) (module : String) (pos : Pos) : List Event :=
  if module == future && p.futureLine < pos.line then
    [.fault "from __future__ imports must occur at the beginning of the file" pos]
  else []

mutual

def ofStmt (p : Place) : Stmt → List Event
  | .expr _ e => ofExpr p .value e
  | .assign _ targets value => ofExpr p .value value ++ ofTargets p false targets
  | .augment _ target _ value => ofExpr p .value target ++ ofExpr p .value value ++ ofTarget p false target
  | .annotate pos target annotation value bare =>
    ofOption p value
      ++ (match target, value with
        | .name _ id, some _ => [.bind id, .annotate id pos]
        | .name _ id, none => [.annotate id pos]
        | t, _ => ofTarget p false t)
      ++ (if bare && p.scope == .function then [.silent (ofExpr p .value annotation)]
        else ofExpr p .value annotation)
  | .ret pos value =>
    (if p.scope == .function then [] else [.fault "'return' outside function" pos]) ++ ofOption p value
  | .raise _ error cause => ofOption p error ++ ofOption p cause
  | .delete _ targets => ofTargets p false targets
  | .pass _ => []
  | .breakLoop pos => if p.inLoop then [] else [.fault "'break' outside loop" pos]
  | .continueLoop pos => if p.inLoop then [] else [.fault "'continue' not properly in loop" pos]
  | .globals pos names => [.globals names pos]
  | .nonlocals pos names => [.nonlocals names pos]
  | .importModules _ modules => modules.map fun (name, as) => .bind (as.getD (topName name))
  | .importNames pos level module names =>
    (if level = 0 then lateFuture p module pos else [])
      ++ names.map fun (name, as) => .bind (as.getD name)
  | .importAll pos starPos level module =>
    .importAll starPos :: (if level = 0 then lateFuture p module pos else [])
  | .assert pos test message =>
    let always := match test with
      | .tuple _ (_ :: _) =>
        [Event.warning "assertion is always true, perhaps remove parentheses?" pos.line]
      | _ => []
    let inside := ofExpr p .value test ++ ofOption p message
    always ++ (if p.bare then [.silent inside] else inside)
  | .branch _ test yes no => ofExpr p .value test ++ ofBody p yes ++ ofBody p no
  | .whileLoop _ test body otherwise =>
    ofExpr p .value test ++ ofBody { p with inLoop := true } body ++ ofExpr p .value test ++ ofBody p otherwise
  | .forLoop _ target source body otherwise =>
    ofExpr p .value source ++ ofTarget p false target ++ ofBody { p with inLoop := true } body
      ++ ofBody p otherwise
  | .attempt _ body handlers otherwise final =>
    ofBody p body ++ ofHandlers p handlers ++ ofBody p otherwise ++ ofBody p final ++ ofBody p final
  | .within _ items body => ofContexts p items ++ ofBody p body
  | .function _ decorators name ps result body =>
    ofExprs p .value decorators ++ ofDefaults p ps ++ ofOption p result
      ++ [.bind name, .scope .function (parameterEvents ps
        ++ ofBody { p with scope := .function, inLoop := false } body)]
  | .cls _ decorators name args body =>
    ofExprs p .value decorators ++ repeatedNames [] args
      ++ [.scope .cls (ofBody { p with scope := .cls, inLoop := false } body)]
      ++ ofArguments p args ++ [.bind name]

def ofBody (p : Place) : List Stmt → List Event
  | [] => []
  | s :: rest => ofStmt p s ++ ofBody p rest

def ofHandlers (p : Place) : List Handler → List Event
  | [] => []
  | .handler pos kinds name body :: rest =>
    (if kinds.isNone && !rest.isEmpty then [.fault "default 'except:' must be last" pos] else [])
      ++ ofOption p kinds ++ (name.map Event.bind).toList ++ ofBody p body ++ ofHandlers p rest

end

end Event

end Stencil.Script
