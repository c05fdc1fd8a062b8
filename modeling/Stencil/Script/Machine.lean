import Stencil.Files
import Stencil.Script.Library

/-!
The machine that source runs on: the heap, the table of modules, the files, the warnings that were
issued, and the lines that are being carried out. A run of code ends with a value, with a raised
error, or because it took too many steps. Code adds warnings and never sees or takes back those that
were issued before it, it leaves the files as they are, and it takes nothing from the heap: `Run`
carries the proof of it, so whatever source does is framed by construction.
-/

namespace Stencil.Script

/-- A warning that was issued: its category, its message, and the line that it is about. A text with a
category of the library stands for a new warning that has the text for its argument. -/
structure Issued where
  kind : ClassRef
  message : Value
  file : String
  line : Int
  deriving Inhabited

def Issued.plain (category text file : String) (line : Int) : Issued :=
  ⟨.library (Library.builtin category), .text text, file, line⟩

inductive Action where
  | note | drop | raise
  deriving DecidableEq, Repr

structure Filter where
  action : Action
  category : ClassRef := .library (Library.builtin "Warning")
  line : Int := 0
  deriving DecidableEq, Repr

structure Folders where
  library : String := "/library"
  own : String := "/engine"
  deriving Repr, Inhabited

structure Machine where
  heap : Array Object := #[]
  /-- The modules that an import finds. -/
  modules : Bindings Value := {}
  files : Files := {}
  folders : Folders := {}
  /-- The first that fits a warning says what is done with it; one that none fits is noted. -/
  filters : List Filter := []
  issued : List Issued := []
  /-- The lines of all calls in progress, the innermost first. -/
  calls : List Mark := []
  /-- The errors that are being handled, the innermost first. -/
  handled : List Nat := []
  /-- The sources that were read already. -/
  read : List Nat := []
  deriving Inhabited

inductive Stop where
  /-- An error, and whether the present call has already left its line with it. -/
  | raised (error : Nat) (placed : Bool)
  | exhausted
  deriving DecidableEq, Repr

namespace Machine

@[inline] def quiet (m : Machine) : Machine := { m with issued := [] }

/-- How a machine goes on after code that found it quiet and left it as `later`. -/
@[inline] def resume (m later : Machine) : Machine :=
  { later with
    files := m.files, folders := m.folders, filters := m.filters
    issued := m.issued ++ later.issued }

@[inline] def listening (m : Machine) : Machine :=
  { m with filters := { action := .note } :: m.filters }

def issuing (m : Machine) (ws : List Issued) : Machine := { m with issued := ws }

@[simp] theorem quiet_issued (m : Machine) : m.quiet.issued = [] := rfl

@[simp] theorem quiet_quiet (m : Machine) : m.quiet.quiet = m.quiet := rfl

@[simp] theorem resume_issued (m later : Machine) :
    (m.resume later).issued = m.issued ++ later.issued := rfl

@[simp] theorem resume_self (m : Machine) : m.resume m.quiet = m := by
  simp [resume, quiet]

@[simp] theorem resume_quiet_resume (m later : Machine) :
    m.resume (m.quiet.resume later) = m.resume later := by
  simp [resume, quiet]

@[simp] theorem issuing_issued (m : Machine) (ws : List Issued) : (m.issuing ws).issued = ws := rfl

@[simp] theorem issuing_nil (m : Machine) : m.issuing [] = m.quiet := rfl

theorem resume_resume_issuing (m n later : Machine) (ws : List Issued) :
    (m.resume n).resume (later.issuing ws) = m.resume (later.issuing (n.issued ++ ws)) := by
  simp [resume, issuing]

theorem resume_resume (m n later : Machine) :
    (m.resume n).resume later = m.resume (n.resume later) := by
  simp [resume]

@[inline] def replacedBy (m n : Machine) : Machine := if m.heap.size ≤ n.heap.size then n else m

theorem size_le_replacedBy (m n : Machine) : m.heap.size ≤ (m.replacedBy n).heap.size := by
  unfold replacedBy
  split
  · assumption
  · exact Nat.le_refl _

theorem size_le_size (m : Machine) : m.heap.size ≤ m.heap.size := Nat.le_refl _

end Machine

/-- Code that runs on a machine. What was issued before it is kept and has no say in what it does,
the files stay as they are, and every object keeps its place on the heap. -/
structure Run (α : Type) where
  run : StateM Machine (Except Stop α)
  framed : ∀ m, run m = ((run m.quiet).1, m.resume (run m.quiet).2)
  grows : ∀ m, m.heap.size ≤ (run m).2.heap.size

namespace Run

@[always_inline, inline] def give {α : Type} (a : α) : Run α where
  run m := (.ok a, m)
  framed m := by simp
  grows m := Nat.le_refl _

@[always_inline, inline] def stop {α : Type} (s : Stop) : Run α where
  run m := (.error s, m)
  framed m := by simp
  grows m := Nat.le_refl _

@[always_inline, inline] def change {α : Type} (f : Machine → α × Machine)
    (keeps : ∀ m, m.heap.size ≤ (f m).2.heap.size) : Run α where
  run m := (.ok (f m.quiet).1, m.resume (f m.quiet).2)
  framed m := by simp
  grows m := keeps m.quiet

theorem quiet_resume_run {α : Type} (code : Run α) (m : Machine) :
    m.quiet.resume (code.run m.quiet).2 = (code.run m.quiet).2 :=
  (congrArg Prod.snd (code.framed m.quiet)).symm

/-- What follows code finds the machine that the code alone would have left it. -/
theorem resume_run_quiet {α : Type} (code : Run α) (m : Machine) :
    (m.resume (code.run m.quiet).2).quiet = (code.run m.quiet).2.quiet := by
  calc (m.resume (code.run m.quiet).2).quiet
      = (m.quiet.resume (code.run m.quiet).2).quiet := rfl
    _ = (code.run m.quiet).2.quiet := by rw [quiet_resume_run]

@[always_inline, inline] def andThen {α β : Type} (code : Run α) (next : Except Stop α → Run β) :
    Run β where
  run m := match code.run m with
    | (result, m) => (next result).run m
  framed m := by
    change (next (code.run m).1).run (code.run m).2 =
      (((next (code.run m.quiet).1).run (code.run m.quiet).2).1,
        m.resume ((next (code.run m.quiet).1).run (code.run m.quiet).2).2)
    have following := (next (code.run m.quiet).1).framed
    rw [code.framed m]
    rw [following (m.resume _), resume_run_quiet, Machine.resume_resume, following (code.run _).2]
  grows m := Nat.le_trans (code.grows m) ((next (code.run m).1).grows (code.run m).2)

@[always_inline]
instance : Monad Run where
  pure := give
  bind code f := code.andThen fun
    | .ok a => f a
    | .error s => stop s

@[always_inline]
instance : MonadExceptOf Stop Run where
  throw := stop
  tryCatch code handler := code.andThen fun
    | .ok a => give a
    | .error s => handler s

/-- A machine that is put in the place of another is refused if its heap is smaller. -/
@[always_inline]
instance : MonadStateOf Machine Run where
  get := change (fun m => (m, m)) fun _ => Nat.le_refl _
  set n := change (fun m => ((), m.replacedBy n)) fun m => m.size_le_replacedBy n
  modifyGet f := change (fun m => ((f m).1, m.replacedBy (f m).2)) fun m => m.size_le_replacedBy (f m).2

/-- Leaves a machine as a function makes it that keeps the heap, or all that is on it. -/
@[always_inline, inline] def update (f : Machine → Machine)
    (keeps : ∀ m, m.heap.size ≤ (f m).heap.size := by exact Machine.size_le_size) : Run Unit :=
  change (fun m => ((), f m)) keeps

theorem ext {α : Type} {code other : Run α} (h : ∀ m, code.run m = other.run m) :
    code = other := by
  cases code
  cases other
  simpa using funext h

@[simp] theorem run_pure {α : Type} (a : α) (m : Machine) :
    (pure a : Run α).run m = (.ok a, m) := rfl

@[simp] theorem run_throw {α : Type} (s : Stop) (m : Machine) :
    (throw s : Run α).run m = (.error s, m) := rfl

theorem run_bind {α β : Type} (code : Run α) (f : α → Run β) (m : Machine) :
    (code >>= f).run m = match code.run m with
      | (.ok a, m) => (f a).run m
      | (.error s, m) => (.error s, m) := by
  simp only [bind, andThen]
  rcases code.run m with ⟨_ | _, _⟩ <;> rfl

theorem run_tryCatch {α : Type} (code : Run α) (handler : Stop → Run α) (m : Machine) :
    (tryCatch code handler).run m = match code.run m with
      | (.ok a, m) => (.ok a, m)
      | (.error s, m) => (handler s).run m := by
  simp only [tryCatch, tryCatchThe, MonadExceptOf.tryCatch, andThen]
  rcases code.run m with ⟨_ | _, _⟩ <;> rfl

theorem of_run_bind {α β : Type} {code : Run α} {f : α → Run β} {m n : Machine} {b : β}
    (h : (code >>= f).run m = (.ok b, n)) :
    ∃ a o, code.run m = (.ok a, o) ∧ (f a).run o = (.ok b, n) := by
  rw [run_bind] at h
  rcases hc : code.run m with ⟨s | a, o⟩ <;> rw [hc] at h
  · cases h
  · exact ⟨a, o, rfl, h⟩

@[simp] theorem run_update (f : Machine → Machine) (keeps : ∀ m, m.heap.size ≤ (f m).heap.size)
    (m : Machine) : (update f keeps).run m = (.ok (), m.resume (f m.quiet)) := rfl

@[simp] theorem run_get (m : Machine) : (get : Run Machine).run m = (.ok m.quiet, m) := by
  show (_, m.resume m.quiet) = _
  rw [Machine.resume_self]

instance : LawfulMonad Run := LawfulMonad.mk' Run
  (fun code => Run.ext fun m => by
    change (code >>= fun a => pure a).run m = _
    rw [run_bind]
    rcases code.run m with ⟨_ | _, _⟩ <;> rfl)
  (fun _ _ => rfl)
  (fun code f g => Run.ext fun m => by
    simp only [run_bind]
    rcases code.run m with ⟨_ | _, _⟩ <;> rfl)

def note (w : Issued) : Run Unit := update fun m => { m with issued := m.issued ++ [w] }

def issue (category text file : String) (line : Int) : Run Unit :=
  note (.plain category text file line)

def modifyHeap (ref : Nat) (o : Object) : Run Unit :=
  update (fun m => { m with heap := m.heap.set! ref o }) fun _ => by simp

def alloc (o : Object) : Run Nat :=
  change (fun m => (m.heap.size, { m with heap := m.heap.push o })) fun _ => by simp

def object (ref : Nat) : Run Object := do
  return (← get).heap[ref]?.getD (.foreign "object" "")

theorem run_object (ref : Nat) (m : Machine) :
    (object ref).run m = (.ok (m.heap[ref]?.getD (.foreign "object" "")), m) := by
  rw [object, run_bind, run_get]
  rfl

def new (o : Object) : Run Value := return .object (← alloc o)

def newList (items : List Value) : Run Value := new (.list items)

def raiseOf {α : Type} (kind : String) (arguments : List Value) : Run α := do
  let ref ← alloc (.error (.library (Library.builtin kind)) arguments {} [])
  throw (.raised ref false)

def raise {α : Type} (kind message : String) : Run α := raiseOf kind [.text message]

def typeError {α : Type} (message : String) : Run α := raise "TypeError" message

def valueError {α : Type} (message : String) : Run α := raise "ValueError" message

def leaveMark (error : Nat) (mark : Mark) : Run Unit := do
  match ← object error with
  | .error c as attrs trace => modifyHeap error (.error c as attrs (trace ++ [mark]))
  | _ => pure ()

/-- Carries out code that stands at a line: an error that comes from there leaves with that line. -/
def placing {α : Type} (mark : Mark) (code : Run α) : Run α :=
  tryCatch code fun
    | .raised error false => do
      leaveMark error mark
      throw (.raised error true)
    | stop => throw stop

def leavingCall {α : Type} (code : Run α) : Run α :=
  tryCatch code fun
    | .raised error _ => throw (.raised error false)
    | stop => throw stop

def within {α : Type} (mark : Mark) (code : Run α) : Run α := do
  update fun m => { m with calls := mark :: m.calls }
  let result ← tryCatch (Except.ok <$> code) fun stop => pure (.error stop)
  update fun m => { m with calls := m.calls.tail }
  match result with
  | .ok a => return a
  | .error stop => throw stop

def standAt (mark : Mark) : Run Unit :=
  update fun m => { m with calls := mark :: m.calls.tail }

def whileHandling {α : Type} (error : Nat) (code : Run α) : Run α := do
  update fun m => { m with handled := error :: m.handled }
  let result ← tryCatch (Except.ok <$> code) fun stop => pure (.error stop)
  update fun m => { m with handled := m.handled.tail }
  match result with
  | .ok a => return a
  | .error stop => throw stop

def handling {α : Type} (code : Run α) (handler : Nat → Run α) : Run α :=
  tryCatch code fun
    | .raised error _ => handler error
    | stop => throw stop

def ofArithmetic (r : Except ArithmeticError Number) : Run Value :=
  match r with
  | .ok n => return Value.ofNumber n
  | .error .resultTooLarge =>
    raiseOf "OverflowError" [.int 34, .text "Numerical result out of range"]
  | .error e => raise e.kind e.message

end Run

/-- Code within a capture of warnings: it can also take away what was issued since the capture
began. -/
structure Capture (α : Type) where
  run : Machine → Except Stop α × Machine
  grows : ∀ m, m.heap.size ≤ (run m).2.heap.size

namespace Capture

@[always_inline, inline] def give {α : Type} (a : α) : Capture α := ⟨fun m => (.ok a, m), fun _ => Nat.le_refl _⟩

@[always_inline, inline] def onward {α β : Type} (next : α → Capture β) :
    Except Stop α × Machine → Except Stop β × Machine
  | (.ok a, m) => (next a).run m
  | (.error s, m) => (.error s, m)

theorem size_le_onward {α β : Type} (next : α → Capture β) (r : Except Stop α × Machine) :
    r.2.heap.size ≤ (onward next r).2.heap.size := by
  obtain ⟨s | a, m⟩ := r
  · exact Nat.le_refl _
  · exact (next a).grows m

@[always_inline]
instance : Monad Capture where
  pure := give
  bind code next :=
    ⟨fun m => onward next (code.run m), fun m => Nat.le_trans (code.grows m) (size_le_onward next _)⟩

instance : MonadLift Run Capture := ⟨fun code => ⟨code.run, code.grows⟩⟩

def stop {α : Type} (s : Stop) : Capture α := ⟨fun m => (.error s, m), fun _ => Nat.le_refl _⟩

def taken : Capture (List Issued) := ⟨fun m => (.ok m.issued, m.quiet), fun _ => Nat.le_refl _⟩

@[simp] theorem run_pure {α : Type} (a : α) (m : Machine) :
    (pure a : Capture α).run m = (.ok a, m) := rfl

@[simp] theorem run_taken (m : Machine) : taken.run m = (.ok m.issued, m.quiet) := rfl

@[simp] theorem run_lift {α : Type} (code : Run α) (m : Machine) :
    (liftM code : Capture α).run m = code.run m := rfl

theorem run_bind {α β : Type} (code : Capture α) (f : α → Capture β) (m : Machine) :
    (code >>= f).run m = match code.run m with
      | (.ok a, m) => (f a).run m
      | (.error s, m) => (.error s, m) := rfl

theorem ext {α : Type} {code other : Capture α} (h : ∀ m, code.run m = other.run m) :
    code = other := by
  cases code
  cases other
  simpa using funext h

instance : LawfulMonad Capture := LawfulMonad.mk' Capture
  (fun code => Capture.ext fun m => by
    change (code >>= fun a => pure a).run m = _
    rw [run_bind]
    rcases code.run m with ⟨_ | _, _⟩ <;> rfl)
  (fun _ _ => rfl)
  (fun code f g => Capture.ext fun m => by
    simp only [run_bind]
    rcases code.run m with ⟨_ | _, _⟩ <;> rfl)

end Capture

/-- Carries out code whose warnings are all noted and kept from the host; those that it leaves are
lost. -/
def Run.capturing {α : Type} (code : Capture α) : Run α where
  run m := ((code.run m.quiet.listening).1, m.resume (code.run m.quiet.listening).2.quiet)
  framed m := by simp
  grows m := code.grows m.quiet.listening

theorem Run.of_run_capturing {α : Type} {code : Capture α} {m n : Machine} {a : α}
    (h : (Run.capturing code).run m = (.ok a, n)) :
    ∃ o, code.run m.quiet.listening = (.ok a, o) ∧ n = m.resume o.quiet := by
  change ((code.run m.quiet.listening).1, m.resume (code.run m.quiet.listening).2.quiet) =
    (.ok a, n) at h
  rcases hc : code.run m.quiet.listening with ⟨result, o⟩
  rw [hc] at h
  cases h
  exact ⟨o, rfl, rfl⟩

def Machine.attributes (m : Machine) (ref : Nat) : Bindings Value :=
  match m.heap[ref]? with
  | some (.module attrs) => attrs
  | _ => {}

def Machine.setAttribute (m : Machine) (ref : Nat) (name : String) (value : Value) : Machine :=
  match m.heap[ref]? with
  | some (.module attrs) => { m with heap := m.heap.set! ref (.module (attrs.set name value)) }
  | _ => m

end Stencil.Script
