import Stencil.Script.Definition
import Stencil.Script.Import
import Stencil.Script.Routine.Table

/-!
Evaluation of expressions in a frame. The recursion follows the syntax; whatever is called, or asked
for its text, goes one call deeper. Every step that can fail is carried out at the position that an
error in it is reported at.
-/

namespace Stencil.Script.Frame

open Run

def scopesInside (f : Frame) : List Nat :=
  if f.kind == .function then f.space :: f.scopes else f.scopes

def globalNamesInside (f : Frame) : List String :=
  if f.kind == .function then f.globalNames else []

def pathTo (f : Frame) (name : String) : String :=
  if f.globalNames.contains name then name else f.path ++ name

def closure (f : Frame) (name : String) (parameters : List Parameter) (defaults : Bindings Value)
    (body : Body) : Closure :=
  let inside := match body with
    | .expression e => Event.ofExpr { scope := .function } .value e
    | .statements b => Event.ofBody { scope := .function } b
  let names := Names.ofEvents .function (Event.parameterEvents parameters ++ inside)
  { name, path := f.pathTo name, file := f.file, parameters, defaults, body
    locals := names.locals, globalNames := names.globals.map Prod.fst ++ f.globalNamesInside
    scopes := f.scopesInside, globals := f.globals, owner := f.owner
    isGenerator := inside.any fun
      | .yielding => true
      | _ => false }

def comprehension (f : Frame) (label : String) (names : Names) (scope : Nat) : Frame :=
  { file := f.file, kind := .function, globals := f.globals, space := scope, locals := names.locals
    globalNames := names.globals.map Prod.fst ++ f.globalNamesInside, scopes := f.scopesInside
    path := f.path ++ label ++ ".<locals>.", owner := f.owner, yielded := f.yielded }

def localNames (f : Frame) : Run Value := do
  match f.kind with
  | .module | .cls => new (.attributesOf f.space)
  | .function => new (.dict (← entriesOf (.attributesOf f.space)))

/-- The rest of the class order after the class that the present method belongs to. -/
def superOf (f : Frame) : Run Value := do
  match f.subject with
  | none => raise "RuntimeError" "super(): no arguments"
  | some name =>
    match ← kept f.space name, f.owner with
    | none, _ => raise "RuntimeError" "super(): arg[0] deleted"
    | _, none => raise "RuntimeError" "super(): __class__ cell not found"
    | some self, some c =>
      let fits ← match self with
        | .cls k => derives k c
        | v => isA v c
      if fits then new (.inherited c self)
      else typeError "super(type, obj): obj must be an instance or subtype of type"

def makeClass (f : Frame) (d : Deeper) (name : String) (bases : List Value)
    (entries : List (Value × Value)) (named : List (String × Value)) : Run Value := do
  Definition.checkKinds bases
  let attributes := entries.foldl (fun (b : Bindings Value) e =>
    match e with
    | (.text n, v) => b.set n v
    | _ => b) {}
  let own := (← kept f.globals "__name__").getD (.text "builtins")
  let attributes := if attributes.has "__module__" then attributes else attributes.set "__module__" own
  let ref ← alloc (.cls { name, path := name, bases := [], order := [], attributes })
  Definition.finish d ref bases bases named

def invoke (f : Frame) (d : Deeper) (callee : Value) (given : List Value)
    (named : List (String × Value)) : Run Value := do
  match callee, given, named with
  | .routine "builtins.globals", [], [] => new (.attributesOf f.globals)
  | .routine "builtins.locals", [], [] | .routine "builtins.vars", [], [] => f.localNames
  | .routine "builtins.dir", [], [] =>
    let names ← itemsOf d (← f.localNames)
    newList (← Containers.sortItems d names [])
  | .cls (.library "builtins.super"), [], [] => f.superOf
  | .cls (.library "builtins.type"), [.text name, .tuple bases, .object ref], named =>
    f.makeClass d name bases (← entriesOf (← object ref)) named
  | _, _, _ => d.call callee given named

end Stencil.Script.Frame

namespace Stencil.Script.Evaluation

open Run

/-- Where a member is looked for: at its name, if that is not on the line of its object. -/
def memberPos (pos namePos : Pos) : Pos := if pos.line = namePos.line then pos else namePos

def isSpread : Argument → Bool
  | .spread _ | .spreadNamed _ => true
  | _ => false

def callPos (pos : Pos) (callee : Expr) (arguments : List Argument) : Pos :=
  match callee with
  | .member p namePos _ _ => if arguments.any isSpread then pos else
      if p.line = namePos.line then pos else namePos
  | _ => pos

def compare (d : Deeper) (op : CompareOp) (a b : Value) : Run Value := do
  match op with
  | .eq => equal d a b
  | .ne => unequal d a b
  | .lt => ordered d .less a b
  | .le => ordered d .atMost a b
  | .gt => ordered d .greater a b
  | .ge => ordered d .atLeast a b
  | .same => return .bool (Value.identical a b)
  | .notSame => return .bool !(Value.identical a b)
  | .within => return .bool (← contains d b a)
  | .notWithin => return .bool !(← contains d b a)

def starItems (d : Deeper) (v : Value) : Run (List Value) := do
  let c ← handling (start d v) fun error => do
    match ← object error with
    | .error _ [.text message] _ _ =>
      if message.endsWith "object is not iterable" then
        typeError ("Value after * must be an iterable, not " ++ (← kindOf v))
      else throw (.raised error false)
    | _ => throw (.raised error false)
  return (← drain d stepLimit c []).reverse

def calleeText (callee : Value) : Run String := do
  let owner := fun (m : Value) (path : String) => match m with
    | .text "builtins" => path ++ "()"
    | .text m => m ++ "." ++ path ++ "()"
    | _ => path ++ "()"
  match callee with
  | .cls c => return owner (← moduleOf c) (← pathOf c)
  | .routine name => return owner (.text (Library.split name).1) (Library.split name).2
  | .object ref =>
    match ← object ref with
    | .function c => return owner (← moduleName c.globals) c.path
    | .method _ (.object r) =>
      match ← object r with
      | .function c => return owner (← moduleName c.globals) c.path
      | _ => return "method object"
    | _ => return (← kindOf callee) ++ " object"
  | v => return (← kindOf v) ++ " object"

/-- The arguments that a star spreads, as the only ones by position or among others. -/
def spreadItems (d : Deeper) (callee : Value) (alone : Bool) (v : Value) : Run (List Value) := do
  if alone then
    let c ← handling (start d v) fun error => do
      match ← object error with
      | .error _ [.text message] _ _ =>
        if message.endsWith "object is not iterable" then
          typeError ((← calleeText callee) ++ " argument after * must be an iterable, not "
            ++ (← kindOf v))
        else throw (.raised error false)
      | _ => throw (.raised error false)
    return (← drain d stepLimit c []).reverse
  else starItems d v

def addNamed (callee : Value) (named : List (String × Value)) :
    List (Value × Value) → Run (List (String × Value))
  | [] => return named
  | (.text n, v) :: rest => do
    if named.any (·.1 == n) then
      typeError ((← calleeText callee) ++ " got multiple values for keyword argument '" ++ n ++ "'")
    else addNamed callee (named ++ [(n, v)]) rest
  | _ :: _ => typeError "keywords must be strings"

def spreadEntries (callee v : Value) : Run (List (Value × Value)) := do
  let refuse := do
    typeError ((← calleeText callee) ++ " argument after ** must be a mapping, not " ++ (← kindOf v))
  match v with
  | .object ref =>
    let o ← object ref
    match o with
    | .dict _ | .attributesOf _ => entriesOf o
    | _ => refuse
  | _ => refuse

def mappingEntries (v : Value) : Run (List (Value × Value)) := do
  let refuse := do typeError ("'" ++ (← kindOf v) ++ "' object is not a mapping")
  match v with
  | .object ref =>
    let o ← object ref
    match o with
    | .dict _ | .attributesOf _ => entriesOf o
    | _ => refuse
  | _ => refuse

def checkedEntries (d : Deeper) (entries : List (Value × Value)) :
    List (Option Value × Value) → Run (List (Value × Value))
  | [] => return entries
  | (some k, v) :: rest => do
    hashable k
    checkedEntries d (← putEntry d k v entries) rest
  | (none, v) :: rest => do
    checkedEntries d (← putEntries d entries (← mappingEntries v)) rest

/-- Takes the items of a value apart for targets, of which one may have a star. -/
def spreadOver (d : Deeper) (targets : List Expr) (v : Value) : Run (List Value) := do
  let isStar := fun
    | Expr.starred _ _ => true
    | _ => false
  match targets.findIdx? isStar with
  | none => unpack d targets.length v
  | some i =>
    let (before, middle, after) ← unpackStar d i (targets.length - i - 1) v
    return before ++ [← newList middle] ++ after

def each (step : Cursor → Run (Option (Value × Cursor))) (body : Value → Run Unit) :
    Nat → Cursor → Run Unit
  | 0, _ => throw .exhausted
  | fuel + 1, c => do
    match ← step c with
    | none => pure ()
    | some (v, c) => do
      body v
      each step body fuel c

def labelOf : Display → String
  | .list => "<listcomp>"
  | .set => "<setcomp>"
  | .dict => "<dictcomp>"
  | .generator => "<genexpr>"

def collect (ref : Nat) (k v : Value) : Run Unit := do
  match ← object ref with
  | .dict entries => modifyHeap ref (.dict ((k, v) :: entries))
  | _ => pure ()

def gather (d : Deeper) (display : Display) (collected : List (Value × Value)) : Run Value := do
  let items := (collected.map Prod.fst).reverse
  match display with
  | .list => newList items
  | .set => new (.set false (← distinct d [] items))
  | .dict => new (.dict (← putEntries d [] collected.reverse))
  | .generator => newIterator "generator" items

def collectedIn (ref : Nat) : Run (List (Value × Value)) := do
  match ← object ref with
  | .dict entries => return entries
  | _ => return []

def namesOf (e : Expr) : Names :=
  match Event.ofExpr { scope := .function } .value e with
  | .scope _ events :: _ => Names.ofEvents .function events
  | _ => {}

def comprehend (d : Deeper) (f : Frame) (pos : Pos) (display : Display) (store : Nat)
    (collecting : Run Unit) : Run Value := do
  let run := leavingCall (within (f.mark pos) collecting)
  match display with
  | .generator =>
    let failure ← handling (do
      run
      pure none) fun error => pure (some error)
    let items := (← collectedIn store).reverse.map Prod.fst
    new (.iterator "generator" ⟨items, failure⟩)
  | display => do
    run
    gather d display (← collectedIn store)

def yieldOne (f : Frame) (v : Value) : Run Unit := do
  match f.yielded with
  | some ref => collect ref v .none
  | none => pure ()

mutual

def eval (d : Deeper) (f : Frame) : Expr → Run Value
  | .literal _ l => return Value.ofLiteral l
  | .name pos id => f.holding pos (f.load id)
  | .joined pos parts => do return .text (← evalParts d f pos parts)
  | .tuple pos items => do return .tuple (← evalItems d f pos items)
  | .list pos items => do newList (← evalItems d f pos items)
  | .set pos items => do
    let vs ← evalItems d f pos items
    f.holding pos do new (.set false (← distinct d [] vs))
  | .dict pos entries => do
    let es ← evalEntries d f entries
    f.holding pos do new (.dict (← checkedEntries d [] es))
  | .unary pos op e => do
    let v ← eval d f e
    f.holding pos (unary d op v)
  | .binary pos op a b => do
    let x ← eval d f a
    let y ← eval d f b
    f.holding pos (binary d op op.sign x y)
  | .both _ items => evalUntil d f false items
  | .either _ items => evalUntil d f true items
  | .compare pos first rest => do evalChain d f pos (← eval d f first) rest
  | .call pos callee args => do
    let fn ← eval d f callee
    let alone := match args with
      | [.spread _] => true
      | .spread _ :: rest => rest.all fun
        | .named _ _ _ | .spreadNamed _ => true
        | _ => false
      | _ => false
    let (given, named) ← evalArguments d f pos fn alone args
    f.holding (callPos pos callee args) (f.invoke d fn given named)
  | .member pos namePos e name => do
    let v ← eval d f e
    f.holding (memberPos pos namePos) (getMember d v name)
  | .subscript pos e index => do
    let v ← eval d f e
    let k ← eval d f index
    f.holding pos (getItem d v k)
  | .slice _ a b c => do return .slice (← evalOr d f a) (← evalOr d f b) (← evalOr d f c)
  | .lambda _ ps body => do
    let defaults ← evalDefaults d f ps
    new (.function (f.closure "<lambda>" ps defaults (.expression body)))
  | .conditional _ test yes no => do
    let t ← eval d f test
    if ← f.holding test.pos (truth d t) then eval d f yes else eval d f no
  | .starred _ e => eval d f e
  | e@(.comprehension pos display element value clauses) => do
    let first ← evalFirst d f clauses
    let c ← f.holding pos (start d first)
    let names := namesOf e
    let scope ← alloc (.scope names.locals {})
    let store ← alloc (.dict [])
    let inner := f.comprehension (labelOf display) names scope
    let emit := do
      let k ← eval d inner element
      let v ← evalOr d inner value
      if display == .set || display == .dict then inner.holding element.pos (hashable k)
      collect store k v
    f.holding pos (comprehend d f pos display store (evalClauses d inner pos emit (some c) clauses))
  | .yield _ value => do
    yieldOne f (← evalOr d f value)
    return .none
  | .yieldFrom pos value => do
    let v ← eval d f value
    let items ← f.holding pos (itemsOf d v)
    for item in items do yieldOne f item
    return .none
  | .assign pos name e => do
    let v ← eval d f e
    f.holding pos (f.store name v)
    return v

def evalItems (d : Deeper) (f : Frame) (pos : Pos) : List Expr → Run (List Value)
  | [] => return []
  | .starred _ e :: rest => do
    let v ← eval d f e
    let items ← f.holding pos (starItems d v)
    return items ++ (← evalItems d f pos rest)
  | e :: rest => do
    let v ← eval d f e
    return v :: (← evalItems d f pos rest)

def evalOr (d : Deeper) (f : Frame) : Option Expr → Run Value
  | none => return .none
  | some e => eval d f e

def evalUntil (d : Deeper) (f : Frame) (wanted : Bool) : List Expr → Run Value
  | [] => return .none
  | e :: rest => do
    let v ← eval d f e
    if rest.isEmpty then return v
    else if (← f.holding e.pos (truth d v)) == wanted then return v
    else evalUntil d f wanted rest

def evalChain (d : Deeper) (f : Frame) (pos : Pos) (left : Value) : List Comparison → Run Value
  | [] => return left
  | .comparison op e :: rest => do
    let right ← eval d f e
    let result ← f.holding pos (compare d op left right)
    if rest.isEmpty then return result
    else if ← f.holding pos (truth d result) then evalChain d f pos right rest
    else return result

def evalEntries (d : Deeper) (f : Frame) : List DictEntry → Run (List (Option Value × Value))
  | [] => return []
  | .entry none e :: rest => do
    let v ← eval d f e
    return (none, v) :: (← evalEntries d f rest)
  | .entry (some k) e :: rest => do
    let key ← eval d f k
    let v ← eval d f e
    return (some key, v) :: (← evalEntries d f rest)

def evalParts (d : Deeper) (f : Frame) (pos : Pos) : List TextPart → Run String
  | [] => return ""
  | part :: rest => do
    let s ← evalPart d f pos part
    return s ++ (← evalParts d f pos rest)

def evalPart (d : Deeper) (f : Frame) (pos : Pos) : TextPart → Run String
  | .text s => return s
  | .field e conversion layout => do
    let v ← eval d f e
    let spec ← evalParts d f pos layout
    f.holding pos do
      match conversion with
      | none => Basic.laidOut d v spec
      | some 's' => Basic.laidOut d (.text (← plainStep d v)) spec
      | some _ => Basic.laidOut d (.text (← quotedStep d v)) spec

def evalArguments (d : Deeper) (f : Frame) (pos : Pos) (callee : Value) (alone : Bool) :
    List Argument → Run (List Value × List (String × Value))
  | [] => return ([], [])
  | arg :: rest => do
    let (own, ownNamed) ← evalArgument d f pos callee alone arg
    let (others, named) ← evalArguments d f pos callee alone rest
    let all ← f.holding pos (addNamed callee ownNamed (named.map fun (n, v) => (.text n, v)))
    return (own ++ others, all)

def evalArgument (d : Deeper) (f : Frame) (pos : Pos) (callee : Value) (alone : Bool) :
    Argument → Run (List Value × List (String × Value))
  | .plain e => do return ([← eval d f e], [])
  | .spread e => do
    let v ← eval d f e
    return (← f.holding pos (spreadItems d callee alone v), [])
  | .named _ name e => do return ([], [(name, ← eval d f e)])
  | .spreadNamed e => do
    let v ← eval d f e
    f.holding pos do return ([], ← addNamed callee [] (← spreadEntries callee v))

def evalDefaults (d : Deeper) (f : Frame) : List Parameter → Run (Bindings Value)
  | [] => return {}
  | .parameter _ _ name _ default :: rest => do
    match default with
    | none => evalDefaults d f rest
    | some e => do
      let v ← eval d f e
      return ⟨(name, v) :: (← evalDefaults d f rest).entries⟩

def evalFirst (d : Deeper) (f : Frame) : List Clause → Run Value
  | [] => return .none
  | .clause _ source _ :: _ => eval d f source

/-- Goes through the clauses of a comprehension; the first one has been begun outside. -/
def evalClauses (d : Deeper) (f : Frame) (pos : Pos) (emit : Run Unit) (first : Option Cursor) :
    List Clause → Run Unit
  | [] => emit
  | .clause target source conditions :: rest => do
    let c ← match first with
      | some c => pure c
      | none => do
        let v ← eval d f source
        f.holding pos (start d v)
    each (fun c => f.holding pos (advance d c)) (fun v => do
      assignTo d f target v
      if ← evalAll d f conditions then evalClauses d f pos emit none rest) stepLimit c

def evalAll (d : Deeper) (f : Frame) : List Expr → Run Bool
  | [] => return true
  | e :: rest => do
    let v ← eval d f e
    if ← f.holding e.pos (truth d v) then evalAll d f rest else return false

def assignTo (d : Deeper) (f : Frame) : Expr → Value → Run Unit
  | .name pos id, v => f.holding pos (f.store id v)
  | .member pos namePos e name, v => do
    let o ← eval d f e
    f.holding (memberPos pos namePos) (setMember d o name v)
  | .subscript pos e index, v => do
    let o ← eval d f e
    let k ← eval d f index
    f.holding pos (setItem d o k v)
  | .tuple pos items, v | .list pos items, v => do
    let vs ← f.holding pos (spreadOver d items v)
    assignAll d f items vs
  | .starred _ e, v => assignTo d f e v
  | _, _ => pure ()

def assignAll (d : Deeper) (f : Frame) : List Expr → List Value → Run Unit
  | e :: es, v :: vs => do
    assignTo d f e v
    assignAll d f es vs
  | _, _ => pure ()

end

end Stencil.Script.Evaluation
