import Stencil.Script.Evaluation

/-!
Execution of statements in a frame. A body ends by falling through, or by leaving a loop, going on
with it, or returning; errors travel on their own. The recursion follows the syntax here too, and
loops count down from the number of steps that a loop may take.
-/

namespace Stencil.Script

inductive Flow where
  | next
  | leave
  | again
  | ret (value : Value)

namespace Execution

open Run Evaluation

/-- Changes a value in place where it can be changed, and combines the two otherwise. -/
def changed (d : Deeper) (op : BinaryOp) (a b : Value) : Run Value := do
  let sign := op.changing
  match ← byMethod d a b ("__i" ++ op.stem ++ "__") with
  | some v => return v
  | none =>
    match op, a with
    | .add, .object ref =>
      match ← object ref with
      | .list items =>
        modifyHeap ref (.list (items ++ (← itemsOf d b)))
        return a
      | _ => binary d op sign a b
    | _, .object ref =>
      let v ← binary d op sign a b
      match ← object ref, v with
      | .list _, .object r | .set false _, .object r | .dict _, .object r =>
        modifyHeap ref (← object r)
        return a
      | _, _ => return v
    | _, _ => binary d op sign a b

/-- Where an assertion is reported: at the last comparison that its truth hangs on. -/
def assertionPos? : Expr → Option Pos
  | .compare pos _ _ => some pos
  | .unary _ .not e => assertionPos? e
  | .both _ items | .either _ items => last items
  | .conditional _ test yes no =>
    (assertionPos? no).orElse fun _ => (assertionPos? yes).orElse fun _ => assertionPos? test
  | _ => none
where
  last : List Expr → Option Pos
    | [] => none
    | e :: rest => (last rest).orElse fun _ => assertionPos? e

def errorOf (d : Deeper) (v : Value) : Run Nat := do
  let refuse := typeError "exceptions must derive from BaseException"
  match v with
  | .cls c =>
    if ← derives c (.builtin "BaseException") then
      let made ← d.call v [] []
      let wrong := do
        typeError ("calling <class '" ++ (← fullName c)
          ++ "'> should have returned an instance of BaseException, not <class '"
          ++ (← fullName (← classOf made)) ++ "'>")
      match made with
      | .object ref =>
        match ← object ref with
        | .error _ _ _ _ => return ref
        | _ => wrong
      | _ => wrong
    else refuse
  | .object ref =>
    match ← object ref with
    | .error _ _ _ _ => return ref
    | _ => refuse
  | _ => refuse

def raiseValue (d : Deeper) (v : Value) (cause : Option Value) : Run Flow := do
  let error ← errorOf d v
  match cause with
  | none => pure ()
  | some .none => setMember d (.object error) "__cause__" .none
  | some c =>
    let origin ← handling (errorOf d c) fun inner => do
      match ← object inner with
      | .error _ [.text "exceptions must derive from BaseException"] _ _ =>
        typeError "exception causes must derive from BaseException"
      | _ => throw (.raised inner false)
    setMember d (.object error) "__cause__" (.object origin)
  throw (.raised error false)

def isCaught (error : ClassRef) (kinds : Value) : Run Bool := do
  let refuse := typeError "catching classes that do not inherit from BaseException is not allowed"
  let check := fun (v : Value) => do
    match v with
    | .cls c => if ← derives c (.builtin "BaseException") then pure c else refuse
    | _ => refuse
  match kinds with
  | .tuple vs => do
    let classes ← vs.mapM check
    classes.anyM (derives error)
  | v => derives error (← check v)

/-- Carries out a body as long as a test holds; nothing is said if the test ends it. -/
def repeating (test : Run Bool) (body : Run Flow) : Nat → Run (Option Flow)
  | 0 => throw .exhausted
  | fuel + 1 => do
    if ← test then
      match ← body with
      | .next | .again => repeating test body fuel
      | .leave => return some .next
      | flow => return some flow
    else return none

def repeatingOver (step : Cursor → Run (Option (Value × Cursor))) (body : Value → Run Flow) :
    Nat → Cursor → Run (Option Flow)
  | 0, _ => throw .exhausted
  | fuel + 1, c => do
    match ← step c with
    | none => return none
    | some (v, c) =>
      match ← body v with
      | .next | .again => repeatingOver step body fuel c
      | .leave => return some .next
      | flow => return some flow

def finishing (code final : Run Flow) : Run Flow := do
  let result ← tryCatch (Except.ok <$> code) fun stop => pure (.error stop)
  match result with
  | .error .exhausted => throw .exhausted
  | .error (.raised error placed) =>
    match ← whileHandling error final with
    | .next => throw (.raised error placed)
    | flow => return flow
  | .ok flow =>
    match ← final with
    | .next => return flow
    | other => return other

def managerMethod (d : Deeper) (v : Value) (name : String) : Run Value := do
  match ← inherited d v name with
  | some f => return f
  | none =>
    typeError ("'" ++ (← kindOf v) ++ "' object does not support the context manager protocol")

def managed (d : Deeper) (f : Frame) (pos : Pos) (manager : Value) (enter : Value → Run Unit)
    (body : Run Flow) : Run Flow := do
  let (start, stop) ← f.holding pos do
    return (← managerMethod d manager "__enter__", ← managerMethod d manager "__exit__")
  let entered ← f.holding pos (d.call start [] [])
  let result ← tryCatch (Except.ok <$> (do
    enter entered
    body)) fun stop => pure (.error stop)
  match result with
  | .ok flow =>
    let _ ← f.holding pos (d.call stop [.none, .none, .none] [])
    return flow
  | .error (.raised error placed) =>
    let kind := Value.cls (← classOf (.object error))
    let swallowed ← whileHandling error
      (f.holding pos do truth d (← d.call stop [kind, .object error, .none] []))
    if swallowed then return .next else throw (.raised error placed)
  | .error stop => throw stop

def evalPlain (d : Deeper) (f : Frame) : List Expr → Run (List Value)
  | [] => return []
  | e :: es => do
    let v ← eval d f e
    return v :: (← evalPlain d f es)

def decorate (d : Deeper) (f : Frame) : List (Expr × Value) → Value → Run Value
  | [], v => return v
  | (e, decorator) :: rest, v => do
    let inner ← decorate d f rest v
    f.holding e.pos (d.call decorator [inner] [])

def evalAnnotations (d : Deeper) (f : Frame) : List Parameter → Run Unit
  | [] => pure ()
  | .parameter _ _ _ annotation _ :: rest => do
    let _ ← evalOr d f annotation
    evalAnnotations d f rest

def noteKind (d : Deeper) (f : Frame) (name : String) (v : Value) : Run Unit := do
  match f.kind with
  | .function => pure ()
  | _ =>
    let table ← match ← Frame.kept f.space "__annotations__" with
      | some t => pure t
      | none => do
        let t ← new (.dict [])
        f.store "__annotations__" t
        pure t
    setItem d table (.text name) v

def deleteTarget (d : Deeper) (f : Frame) : Expr → Run Unit
  | .name pos id => f.holding pos (f.delete id)
  | .member pos namePos e name => do
    let o ← eval d f e
    f.holding (memberPos pos namePos) (deleteMember o name)
  | .subscript pos e index => do
    let o ← eval d f e
    let k ← eval d f index
    f.holding pos (deleteItem d o k)
  | .tuple _ items | .list _ items => deleteAll items
  | _ => pure ()
where
  deleteAll : List Expr → Run Unit
    | [] => pure ()
    | e :: es => do
      deleteTarget d f e
      deleteAll es

def augment (d : Deeper) (f : Frame) (pos : Pos) (op : BinaryOp) (target value : Expr) : Run Unit := do
  match target with
  | .name p id =>
    let a ← f.holding p (f.load id)
    let b ← eval d f value
    let v ← f.holding pos (changed d op a b)
    f.holding p (f.store id v)
  | .member p namePos e name =>
    let at_ := memberPos p namePos
    let o ← eval d f e
    let a ← f.holding at_ (getMember d o name)
    let b ← eval d f value
    let v ← f.holding pos (changed d op a b)
    f.holding at_ (setMember d o name v)
  | .subscript p e index =>
    let o ← eval d f e
    let k ← eval d f index
    let a ← f.holding p (getItem d o k)
    let b ← eval d f value
    let v ← f.holding pos (changed d op a b)
    f.holding p (setItem d o k v)
  | _ => pure ()

def importAll (d : Deeper) (f : Frame) : List (String × Option String) → Run Unit
  | [] => pure ()
  | (name, as) :: rest => do
    Import.bindModule d f name as
    importAll d f rest

def define (d : Deeper) (f : Frame) (pos : Pos) (name : String) (doc : Option String) (names : Names)
    (written : List Value) (named : List (String × Value)) (body : Frame → Run Flow) : Run Value := do
  let bases ← Definition.resolveBases written written
  Definition.checkKinds bases
  let own := (← Frame.kept f.globals "__name__").getD (.text "builtins")
  let path := f.pathTo name
  let start : Bindings Value := .ofList [("__module__", own), ("__qualname__", .text path)]
  let attributes := match doc with
    | some s => start.set "__doc__" (.text s)
    | none => start
  let ref ← alloc (.cls { name, path, bases := [], order := [], attributes })
  let inner : Frame :=
    { file := f.file, kind := .cls, globals := f.globals, space := ref, locals := names.locals
      globalNames := names.globals.map Prod.fst ++ f.globalNamesInside, scopes := f.scopesInside
      path := path ++ ".", owner := some (.defined ref) }
  let _ ← leavingCall (within (f.mark pos) (body inner))
  Definition.finish d ref written bases named

mutual

def exec (d : Deeper) (f : Frame) : Stmt → Run Flow
  | .expr _ e => do
    let _ ← eval d f e
    return .next
  | .assign _ targets value => do
    let v ← eval d f value
    for t in targets do assignTo d f t v
    return .next
  | .augment pos target op value => do
    augment d f pos op target value
    return .next
  | .annotate _ target annotation value bare => do
    match value with
    | some e => assignTo d f target (← eval d f e)
    | none => pure ()
    match target, bare with
    | .name pos id, true =>
      if f.kind == .function then pure ()
      else do
        let v ← eval d f annotation
        f.holding pos (noteKind d f id v)
    | _, _ => if f.kind == .function then pure () else let _ ← eval d f annotation
    return .next
  | .ret _ value => do return .ret (← evalOr d f value)
  | .raise pos none _ => do
    match (← get).handled with
    | [] => f.holding pos (raise "RuntimeError" "No active exception to reraise")
    | error :: _ => throw (.raised error true)
  | .raise pos (some e) cause => do
    let v ← eval d f e
    let c ← match cause with
      | none => pure none
      | some e => do pure (some (← eval d f e))
    f.holding pos (raiseValue d v c)
  | .delete _ targets => do
    for t in targets do deleteTarget d f t
    return .next
  | .pass _ | .globals _ _ | .nonlocals _ _ => return .next
  | .breakLoop _ => return .leave
  | .continueLoop _ => return .again
  | .importModules pos modules => do
    f.holding pos (importAll d f modules)
    return .next
  | .importNames pos level module names => do
    f.holding pos do
      Import.bindNames d f (← Import.source d f level module (names.map Prod.fst)) names
    return .next
  | .importAll pos _ level module => do
    f.holding pos (Import.bindOffered d f level module)
    return .next
  | .assert pos test message => do
    let t ← eval d f test
    if ← f.holding test.pos (truth d t) then return .next
    else do
      let args ← match message with
        | none => pure []
        | some e => do pure [← eval d f e]
      f.holding ((assertionPos? test).getD pos) (raiseOf "AssertionError" args)
  | .branch _ test yes no => do
    let t ← eval d f test
    if ← f.holding test.pos (truth d t) then execBody d f yes else execBody d f no
  | .whileLoop _ test body otherwise => do
    let holds := do
      let t ← eval d f test
      f.holding test.pos (truth d t)
    match ← repeating holds (execBody d f body) stepLimit with
    | none => execBody d f otherwise
    | some flow => return flow
  | .forLoop pos target source body otherwise => do
    let v ← eval d f source
    let c ← f.holding pos (start d v)
    let step := fun v => do
      assignTo d f target v
      execBody d f body
    match ← repeatingOver (fun c => f.holding pos (advance d c)) step stepLimit c with
    | none => execBody d f otherwise
    | some flow => return flow
  | .attempt _ body handlers otherwise final =>
    finishing (do
      let result ← tryCatch (Except.ok <$> execBody d f body) fun stop => pure (.error stop)
      match result with
      | .ok .next => execBody d f otherwise
      | .ok flow => return flow
      | .error (.raised error placed) => do
        let c ← classOf (.object error)
        match ← whileHandling error (execHandlers d f error c handlers) with
        | some flow => return flow
        | none => throw (.raised error placed)
      | .error stop => throw stop) (execBody d f final)
  | .within pos items body => execManaged d f pos (execBody d f body) items
  | .function pos decorators name ps result body => do
    let decs ← evalPlain d f decorators
    let defaults ← evalDefaults d f ps
    evalAnnotations d f ps
    let _ ← evalOr d f result
    let fn ← new (.function (f.closure name ps defaults (.statements body)))
    let v ← decorate d f (decorators.zip decs) fn
    f.holding pos (f.store name v)
    return .next
  | .cls pos decorators name args body => do
    let decs ← evalPlain d f decorators
    let (written, named) ← evalArguments d f pos .none false args
    let names := Names.ofEvents .cls (Event.ofBody { scope := .cls } body)
    let made ← f.holding pos
      (define d f pos name (Stmt.doc? body) names written named fun inner => execBody d inner body)
    let v ← decorate d f (decorators.zip decs) made
    f.holding pos (f.store name v)
    return .next

def execBody (d : Deeper) (f : Frame) : List Stmt → Run Flow
  | [] => return .next
  | s :: rest => do
    match ← exec d f s with
    | .next => execBody d f rest
    | flow => return flow

def execHandlers (d : Deeper) (f : Frame) (error : Nat) (c : ClassRef) :
    List Handler → Run (Option Flow)
  | [] => return none
  | .handler pos kinds name body :: rest => do
    let matching ← match kinds with
      | none => pure true
      | some e => do
        let v ← eval d f e
        f.holding pos (isCaught c v)
    if matching then
      match name with
      | none => return some (← execBody d f body)
      | some n => do
        f.holding pos (f.store n (.object error))
        let flow ← finishing (execBody d f body) do
          f.store n .none
          f.delete n
          return .next
        return some flow
    else execHandlers d f error c rest

def execManaged (d : Deeper) (f : Frame) (pos : Pos) (body : Run Flow) :
    List (Expr × Option Expr) → Run Flow
  | [] => body
  | (e, target) :: rest => do
    let manager ← eval d f e
    managed d f e.pos manager (fun v => do
      match target with
      | none => pure ()
      | some t => assignTo d f t v) (execManaged d f pos body rest)

end

end Execution

end Stencil.Script
