import Stencil.Proofs.Compiler.Delivery

/-!
What compilations note in the journal. A compilation does nothing with the journal but add records to
it, all of them with the id of the compilation. On the way to the end everything is noted at the debug
level; the end of a compilation that got to an emission is announced above it by one record. Only the
missing class has no record of its own, so an end is announced exactly if no class is missing
(`compile_announces`).
-/

namespace Stencil

open Script

namespace Log

def Record.field? (r : Record) (name : String) : Option Datum :=
  ((r.fields.getD []).find? fun (k, _) => k.same (.text name)).map Prod.snd

def Record.isLoud (r : Record) : Bool := Compiler.debugLevel < r.level

theorem Record.isLoud_iff (r : Record) : r.isLoud = true ↔ Compiler.debugLevel < r.level :=
  decide_eq_true_iff

def Journal.logAll (j : Journal) (id : Option String) (rs : List Record) : Journal :=
  rs.foldl (fun j r => j.log id r) j

theorem Journal.logAll_append (j : Journal) (id : Option String) (rs rs' : List Record) :
    j.logAll id (rs ++ rs') = (j.logAll id rs).logAll id rs' :=
  List.foldl_append

def Handler.takes (h : Handler) (r : Record) : Bool := h.accepts r.level

theorem Journal.logAll_written {j : Journal} {h : Handler} {P : Record → String → Prop}
    (taken : j.handler = some h) (id : Option String) (rs : List Record)
    (each : ∀ r ∈ rs, ∃ text, (r.stamp id).text h.layout j.clock = .ok text ∧ P r text) :
    ∃ texts, (j.logAll id rs).written = j.written ++ texts.map (Prod.mk h.sink) ∧
      List.Forall₂ P (rs.filter h.takes) texts := by
  induction rs generalizing j with
  | nil => exact ⟨[], (List.append_nil _).symm, .nil⟩
  | cons r rest ih =>
    rw [List.forall_mem_cons] at each
    obtain ⟨⟨text, made, holds⟩, others⟩ := each
    rw [logAll, List.foldl_cons, ← logAll]
    by_cases accepted : h.takes r = true
    · have first : j.log id r = { j with written := j.written ++ [(h.sink, text)] } := by
        rw [log, taken]
        dsimp only
        rw [← Handler.takes, if_pos accepted, made]
      obtain ⟨texts, written, later⟩ := ih (j := j.log id r) (by rw [first]; exact taken)
        (by rw [first]; exact others)
      refine ⟨text :: texts, ?_, ?_⟩
      · rw [written, first, List.append_assoc]
        rfl
      · rw [List.filter_cons_of_pos accepted]
        exact .cons holds later
    · have first : j.log id r = j := by
        rw [log, taken]
        dsimp only
        rw [← Handler.takes, if_neg accepted]
      rw [first, List.filter_cons_of_neg accepted]
      exact ih taken others

def loudHandler : Handler :=
  { sink := "", level := Compiler.debugLevel + 1, layout := .readable }

theorem takes_loudHandler (r : Record) : loudHandler.takes r = r.isLoud := by
  rw [Bool.eq_iff_iff, Record.isLoud_iff, Compiler.debugLevel]
  simp [Handler.takes, Handler.accepts, loudHandler, Compiler.debugLevel]
  omega

theorem Journal.length_written_loudHandler {j : Journal} (taken : j.handler = some loudHandler)
    (id : Option String) (rs : List Record) :
    (j.logAll id rs).written.length = j.written.length + (rs.filter Record.isLoud).length := by
  obtain ⟨texts, written, each⟩ := logAll_written (P := fun _ _ => True) taken id rs
    fun r _ => ⟨_, rfl, trivial⟩
  rw [written, List.length_append, List.length_map, ← each.length_eq,
    List.filter_congr fun r _ => takes_loudHandler r]

end Log

namespace Compiler

open Log (Record)

variable {α β : Type}

/-- From a state on, code adds records to the journal and does nothing else with it. -/
structure Notes (code : Work α) (w : Workshop) (rs : List Record) : Prop where
  scope : (code.run.run w).2.scope = w.scope
  adds : ∀ journal, code.run.run { w with journal } = ((code.run.run w).1,
    { (code.run.run w).2 with journal := journal.logAll w.scope.current rs })

def Noting (P : Record → Prop) (code : Work α) : Prop :=
  ∀ w, ∃ rs, Notes code w rs ∧ ∀ r ∈ rs, P r

def Quiet (code : Work α) : Prop :=
  ∀ w, ∃ rs, Notes code w rs ∧ rs.filter Record.isLoud = []

section laws

variable {code : Work α} {f : α → Work β} {v w : Workshop} {rs rs' : List Record}
  {P : Record → Prop}

theorem Notes.bind {a : α} (first : Notes code w rs) (ran : code.run.run w = (.ok a, v))
    (next : Notes (f a) v rs') : Notes (code >>= f) w (rs ++ rs') := by
  have scope := first.scope
  rw [ran] at scope
  dsimp only at scope
  constructor
  · rw [run_bind, ran]
    exact next.scope.trans scope
  · intro journal
    rw [run_bind, run_bind, first.adds, ran]
    dsimp only
    rw [next.adds, scope, Log.Journal.logAll_append]

theorem Notes.bind_error {s : Failure} (first : Notes code w rs)
    (ran : code.run.run w = (.error s, v)) : Notes (code >>= f) w rs := by
  have scope := first.scope
  rw [ran] at scope
  constructor
  · rw [run_bind, ran]
    exact scope
  · intro journal
    rw [run_bind, run_bind, first.adds, ran]

theorem notes_log (level : Int) (message : String) (fields : List (String × Datum))
    (w : Workshop) : Notes (log level message fields) w [record level message fields] :=
  ⟨rfl, fun _ => rfl⟩

theorem noting_of_silent (h : ∀ w, Notes code w []) : Noting P code :=
  fun w => ⟨[], h w, List.forall_mem_nil P⟩

theorem notes_pure (a : α) (w : Workshop) : Notes (pure a : Work α) w [] := ⟨rfl, fun _ => rfl⟩

theorem notes_throw (s : Failure) (w : Workshop) : Notes (throw s : Work α) w [] :=
  ⟨rfl, fun _ => rfl⟩

theorem notes_modify {change : Workshop → Workshop} (w : Workshop)
    (apart : ∀ journal, change { w with journal } = { change w with journal })
    (scope : (change w).scope = w.scope) : Notes (modify change : Work PUnit) w [] :=
  ⟨scope, fun journal => congrArg (Prod.mk _) (apart journal)⟩

theorem notes_onMachine (code : Run α) (w : Workshop) : Notes (onMachine code) w [] := by
  constructor
  · rw [run_onMachine_eq]
  · intro journal
    rw [run_onMachine_eq, run_onMachine_eq]
    rfl

theorem Notes.get_bind {f : Workshop → Work β} (apart : ∀ journal, f { w with journal } = f w)
    (h : Notes (f w) w rs) : Notes (get >>= f) w rs := by
  constructor
  · rw [run_bind, run_get]
    exact h.scope
  · intro journal
    rw [run_bind, run_bind, run_get, run_get]
    dsimp only
    rw [apart]
    exact h.adds journal

namespace Noting

theorem quiet (h : Noting P code) (soft : ∀ r, P r → r.isLoud = false) : Quiet code := by
  intro w
  obtain ⟨rs, notes, each⟩ := h w
  refine ⟨rs, notes, List.filter_eq_nil_iff.2 fun r member => ?_⟩
  rw [soft r (each r member)]
  exact Bool.false_ne_true

theorem pure (a : α) : Noting P (Pure.pure a : Work α) := noting_of_silent (notes_pure a)

theorem throw (s : Failure) : Noting P (MonadExcept.throw s : Work α) :=
  noting_of_silent (notes_throw s)

theorem log {level : Int} {message : String} {fields : List (String × Datum)}
    (h : P (record level message fields)) : Noting P (Compiler.log level message fields) :=
  fun w => ⟨_, notes_log _ _ _ w, List.forall_mem_singleton.2 h⟩

theorem modify {change : Workshop → Workshop}
    (apart : ∀ w journal, change { w with journal } = { change w with journal })
    (scope : ∀ w, (change w).scope = w.scope) : Noting P (modify change : Work PUnit) :=
  noting_of_silent fun w => notes_modify w (apart w) (scope w)

theorem onMachine (code : Run α) : Noting P (onMachine code) :=
  noting_of_silent (notes_onMachine code)

theorem get_bind {f : Workshop → Work β} (apart : ∀ w journal, f { w with journal } = f w)
    (h : ∀ w, Noting P (f w)) : Noting P (get >>= f) := by
  intro w
  obtain ⟨rs, notes, each⟩ := h w w
  exact ⟨rs, notes.get_bind (apart w), each⟩

theorem bind (first : Noting P code) (h : ∀ a, Noting P (f a)) : Noting P (code >>= f) := by
  intro w
  obtain ⟨rs, notes, each⟩ := first w
  rcases ran : code.run.run w with ⟨s | a, v⟩
  · exact ⟨rs, notes.bind_error ran, each⟩
  · obtain ⟨rs', notes', each'⟩ := h a v
    exact ⟨rs ++ rs', notes.bind ran notes', List.forall_mem_append.2 ⟨each, each'⟩⟩

theorem tryCatch {handler : Failure → Work α} (first : Noting P code)
    (h : ∀ s, Noting P (handler s)) : Noting P (tryCatch code handler) := by
  intro w
  obtain ⟨rs, notes, each⟩ := first w
  have scope := notes.scope
  rcases ran : code.run.run w with ⟨s | a, v⟩ <;> rw [ran] at scope
  · obtain ⟨rs', notes', each'⟩ := h s v
    refine ⟨rs ++ rs', ⟨?_, fun journal => ?_⟩, List.forall_mem_append.2 ⟨each, each'⟩⟩
    · rw [run_tryCatch, ran]
      exact notes'.scope.trans scope
    · rw [run_tryCatch, run_tryCatch, notes.adds, ran]
      dsimp only
      rw [notes'.adds, Log.Journal.logAll_append]
      rw [show v.scope = w.scope from scope]
  · refine ⟨rs, ⟨?_, fun journal => ?_⟩, each⟩
    · rw [run_tryCatch, ran]
      exact scope
    · rw [run_tryCatch, run_tryCatch, notes.adds, ran]

end Noting

end laws

def wrote (context : Context) (folder : String) : Record :=
  record debugLevel "Wrote generated source"
    [("class_name", .text context.className), ("tmp_folder", .text folder)]

def resolved (ds : List Dependency) : Record :=
  record debugLevel ("Resolved " ++ toString ds.length ++ " references")
    [("references", .list (ds.map fun d => .text d.display))]

def warned (e : Report.Entry) : Record :=
  record debugLevel ("Compiler warning: " ++ e.summary)
    [("error_number", .text e.number), ("line", .int e.line)]

section stages

variable {c : Compiler} {context : Context} {P : Record → Prop}

theorem noting_makeFolder (c : Compiler) : Noting P c.makeFolder := by
  refine noting_of_silent fun w => ?_
  constructor
  · rw [run_makeFolder]
    cases w.machine.files.place? (c.newFolder w) <;> rfl
  · intro journal
    have same : c.newFolder { w with journal } = c.newFolder w := rfl
    rw [run_makeFolder, run_makeFolder, same]
    dsimp only
    cases w.machine.files.place? (c.newFolder w) <;> rfl

theorem noting_setFiles (files : Files) : Noting P (setFiles files) :=
  Noting.modify (fun _ _ => rfl) fun _ => rfl

theorem noting_writeSource (path text : String) : Noting P (writeSource path text) := by
  refine Noting.get_bind (fun _ _ => rfl) fun w => ?_
  dsimp only
  split
  · exact Noting.throw _
  · split
    · exact Noting.throw _
    · split
      · exact noting_setFiles _
      · exact Noting.throw _

theorem noting_store (h : ∀ folder, P (wrote context folder)) (folder : String) :
    Noting P (c.store context folder) :=
  (noting_writeSource _ _).bind fun _ => (Noting.log (h folder)).bind fun _ => Noting.pure _

theorem noting_resolveEach (c : Compiler) (context : Context) : Noting P (c.resolveEach context) := by
  refine Noting.get_bind (fun _ _ => rfl) fun w => (Noting.onMachine _).bind fun supplies => ?_
  refine Noting.get_bind (fun _ _ => rfl) fun v => ?_
  split
  · exact Noting.pure _
  · exact Noting.throw _

theorem noting_resolveAll (c : Compiler) (folder : String) (context : Context) :
    Noting P (c.resolveAll folder context) := by
  refine (noting_resolveEach c context).tryCatch fun s => ?_
  cases s.isAnnounced with
  | true =>
    exact (Noting.get_bind (fun _ _ => rfl) fun w => noting_setFiles _).bind fun _ => Noting.throw s
  | false => exact (Noting.pure ()).bind fun _ => Noting.throw s

theorem noting_emitInto (h : ∀ ds, P (resolved ds)) (path : String) (ds : List Dependency) :
    Noting P (c.emitInto context path ds) := by
  refine (Noting.log (h ds)).bind fun _ => Noting.get_bind (fun _ _ => rfl) fun w => ?_
  refine (Noting.onMachine _).bind fun b => ?_
  refine Noting.bind (Noting.modify (fun _ _ => rfl) fun _ => rfl) fun _ => ?_
  exact (Noting.onMachine _).bind fun e => Noting.pure _

theorem noting_toEmission (stored : ∀ folder, P (wrote context folder))
    (emitted : ∀ ds, P (resolved ds)) : Noting P (c.toEmission context) :=
  (noting_makeFolder c).bind fun folder => (noting_store stored folder).bind fun path =>
    (noting_resolveAll c folder context).bind fun ds =>
      (noting_emitInto emitted path ds).bind fun _ => Noting.pure _

theorem quiet_toEmission (c : Compiler) (context : Context) : Quiet (c.toEmission context) :=
  (noting_toEmission (P := fun r => r.isLoud = false) (fun _ => rfl) fun _ => rfl).quiet fun _ h => h

theorem noting_noteWarnings (h : ∀ e, P (warned e)) (entries : List Report.Entry) :
    Noting P (noteWarnings entries) := by
  induction entries with
  | nil => exact Noting.pure ()
  | cons e rest ih =>
    unfold noteWarnings
    split
    · exact (Noting.log (h e)).bind fun _ => ih
    · exact ih

theorem noting_recordAll (h : ∀ e, P (warned e)) (entries : List Report.Entry) :
    Noting P (recordAll entries) :=
  Noting.bind (Noting.modify (fun _ _ => rfl) fun _ => rfl) fun _ => noting_noteWarnings h entries

theorem quiet_recordAll (entries : List Report.Entry) : Quiet (recordAll entries) :=
  (noting_recordAll (P := fun r => r.isLoud = false) (fun _ => rfl) entries).quiet fun _ h => h

end stages

def isUncollectible : Except Failure Product → Bool
  | .error .uncollectible => true
  | _ => false

def errorsIn (entries : List Report.Entry) : Nat := (entries.filter (!·.isWarning)).length

/-- A record says how a compilation ended, and counts the entries that are handed over. -/
structure Tells (record : Record) (result : Except Failure Product) : Prop where
  returned : record.level = infoLevel ↔ isReturned result = true
  rejected : record.level = warningLevel ↔ isRejected result = true
  uncollectible : record.level = errorLevel ↔ isUncollectible result = true
  errors : isAnswer result = true →
    record.field? "errors" = some (.int (errorsIn (deliveredBy result)))
  warnings : isAnswer result = true →
    record.field? "warnings" = some (.int (warningsIn (deliveredBy result)))

section conclusion

variable {c : Compiler} {context : Context} {r : Emitted} {entries : List Report.Entry}
  {v w : Workshop}

theorem warningsIn_add_errorsIn (entries : List Report.Entry) :
    warningsIn entries + errorsIn entries = entries.length := by
  have split := (List.filter_append_perm (fun e : Report.Entry => e.isWarning) entries).length_eq
  rwa [List.length_append] at split

def summary (context : Context) (folder : String) (entries : List Report.Entry) :
    List (String × Datum) :=
  [("class_name", .text context.className), ("tmp_folder", .text folder),
    ("errors", .int (errorsIn entries)), ("warnings", .int (warningsIn entries))]

theorem tells_summary {level : Int} {result : Except Failure Product}
    (delivered : isAnswer result = true → deliveredBy result = entries)
    (returned : (level == infoLevel) = isReturned result)
    (rejected : (level == warningLevel) = isRejected result)
    (uncollectible : (level == errorLevel) = isUncollectible result) (message folder : String) :
    Tells (record level message (summary context folder entries)) result where
  returned := by rw [← returned, beq_iff_eq, record]
  rejected := by rw [← rejected, beq_iff_eq, record]
  uncollectible := by rw [← uncollectible, beq_iff_eq, record]
  errors answer := by
    rw [delivered answer]
    rfl
  warnings answer := by
    rw [delivered answer]
    rfl

/-- The end of a compilation that got to an emission is told by one record, unless the class is
missing. -/
theorem conclude_tells
    (finished : isAnswer (c.verdict context r entries w.machine) = true ∨
      isUncollectible (c.verdict context r entries w.machine) = true) :
    ∃ rs, Notes (c.conclude context r entries) w rs ∧
      ((r.emission.success && isRejected (c.verdict context r entries w.machine)) = true ∧ rs = [] ∨
        (r.emission.success && isRejected (c.verdict context r entries w.machine)) = false ∧
          ∃ record, rs = [record] ∧ record.isLoud = true ∧
            Tells record (c.verdict context r entries w.machine)) := by
  have total := warningsIn_add_errorsIn entries
  have errors : entries.length - warningsIn entries = errorsIn entries := by omega
  have warnings : entries.length - errorsIn entries = warningsIn entries := by omega
  unfold conclude
  dsimp only
  rw [errors, warnings]
  cases hs : r.emission.success with
  | false =>
    obtain ⟨report, artifacts, result, he⟩ := verdict_of_failure hs
    rw [result]
    simp only [Bool.not_false, if_true]
    refine ⟨_, (notes_log _ _ _ w).bind rfl (notes_throw _ _), .inr ⟨rfl, _, rfl, rfl, ?_⟩⟩
    refine tells_summary ?_ rfl rfl rfl _ _
    exact fun _ => he
  | true =>
    simp only [Bool.not_true, Bool.false_eq_true, if_false]
    cases hu : r.emission.isUncollectible with
    | true =>
      rw [verdict_of_uncollectible hs hu]
      simp only [if_true]
      refine ⟨_, (notes_log _ _ _ w).bind rfl (notes_throw _ _), .inr ⟨rfl, _, rfl, rfl, ?_⟩⟩
      exact tells_summary (fun answer => by cases answer) rfl rfl rfl _ _
    | false =>
      simp only [Bool.false_eq_true, if_false]
      rcases ht : r.builder.typeNamed w.machine (c.moduleName context) with message | _ | cls
      · rw [verdict_of_blocked hs hu ht] at finished
        obtain finished | finished := finished <;> cases finished
      · obtain ⟨report, artifacts, result, -⟩ := verdict_of_missing hs hu ht
        rw [result]
        refine ⟨[], Notes.get_bind (fun _ => rfl) ?_, .inl ⟨rfl, rfl⟩⟩
        rw [ht]
        exact notes_throw _ _
      · obtain ⟨product, result, -, he⟩ := verdict_of_found hs hu ht
        obtain ⟨path, ran⟩ := Run.run_pathOf cls w.machine
        rw [result]
        refine ⟨[record infoLevel ("Compiled " ++ path) (summary context r.folder entries)],
          Notes.get_bind (fun _ => rfl) ?_, .inr ⟨rfl, _, rfl, rfl, ?_⟩⟩
        · rw [ht]
          exact (notes_onMachine _ w).bind (run_onMachine ran)
            ((notes_log _ _ _ _).bind rfl (notes_pure _ _))
        · refine tells_summary ?_ rfl rfl rfl _ _
          exact fun _ => he

theorem carryOut_tells
    (h : (c.toEmission context).run.run (c.enter context w).1 = (.ok r, v))
    (hr : r.emission.diagnostics.mapM Report.Entry.ofDiagnostic = .ok entries)
    (finished : isAnswer (c.verdict context r entries v.machine) = true ∨
      isUncollectible (c.verdict context r entries v.machine) = true) :
    ∃ rs, Notes (c.carryOut context) (c.enter context w).1 rs ∧
      ((r.emission.success && isRejected (c.verdict context r entries v.machine)) = true ∧
          rs.filter Record.isLoud = [] ∨
        (r.emission.success && isRejected (c.verdict context r entries v.machine)) = false ∧
          ∃ record, rs.filter Record.isLoud = [record] ∧
            Tells record (c.verdict context r entries v.machine)) := by
  obtain ⟨before, notes, quiet⟩ := quiet_toEmission c context (c.enter context w).1
  have silent : Notes (entriesOf r.emission.diagnostics) v [] := by
    unfold entriesOf
    rw [hr]
    exact notes_pure entries v
  obtain ⟨u, ran, kept⟩ := keeps_recordAll entries v
  obtain ⟨during, notes', quiet'⟩ := quiet_recordAll entries v
  rw [← kept] at finished ⊢
  obtain ⟨after, notes'', ends⟩ := conclude_tells finished
  refine ⟨before ++ ([] ++ (during ++ after)),
    notes.bind h (silent.bind (run_entriesOf hr v) (notes'.bind ran notes'')), ?_⟩
  rw [List.filter_append, List.nil_append, List.filter_append, quiet, quiet', List.nil_append,
    List.nil_append]
  obtain ⟨missing, rfl⟩ | ⟨whole, record, rfl, loud, tells⟩ := ends
  · exact .inl ⟨missing, rfl⟩
  · refine .inr ⟨whole, record, ?_, tells⟩
    rw [List.filter_singleton, loud]
    rfl

end conclusion

def Call.id (k : Call) : Option String := Log.nonempty (some (k.compiler.moduleName k.context))

/-- The records that a call makes: whatever the journal is, it gets them, and all else is the same. -/
def Call.Logs (k : Call) (rs : List Record) : Prop :=
  ∀ journal, (k.compiler.compile k.context).run { k.workshop with journal } =
    (k.result, { k.after with journal := journal.logAll k.id rs })

def Announces (rs : List Record) (result : Except Failure Product) : Prop :=
  ∃ record, rs.filter Record.isLoud = [record] ∧ Tells record result

theorem logs_of_notes {c : Compiler} {context : Context} {w : Workshop} {rs : List Record}
    (notes : Notes (c.carryOut context) (c.enter context w).1 rs) :
    Call.Logs ⟨c, context, w⟩ rs := by
  intro journal
  have begun : (c.enter context { w with journal }).1 = { (c.enter context w).1 with journal } := rfl
  have token : (c.enter context { w with journal }).2 = (c.enter context w).2 := rfl
  unfold Call.result Call.after
  dsimp only
  rw [run_compile, run_compile, begun, token, notes.adds]
  generalize (c.carryOut context).run.run (c.enter context w).1 = ended
  rfl

section calls

variable {k : Call}

theorem logs_cases (reached : k.emitted?.isSome = true)
    (finished : isAnswer k.result = true ∨ isUncollectible k.result = true) :
    ∃ rs, k.Logs rs ∧ (k.lacking = true ∧ rs.filter Record.isLoud = [] ∨
      k.lacking = false ∧ Announces rs k.result) := by
  obtain ⟨c, context, w⟩ := k
  unfold Call.emitted? Call.begun at reached
  unfold Call.result at finished
  unfold Call.lacking Call.emitted? Call.result Call.begun
  dsimp only at reached finished ⊢
  rcases h : (c.toEmission context).run.run (c.enter context w).1 with ⟨f | r, v⟩
  · rw [h] at reached
    cases reached
  · cases hr : r.emission.diagnostics.mapM Report.Entry.ofDiagnostic with
    | error issues =>
      rw [compile_eq_invalid h hr] at finished
      obtain finished | finished := finished <;> cases finished
    | ok entries =>
      rw [compile_eq_verdict h hr] at finished ⊢
      obtain ⟨rs, notes, ends⟩ := carryOut_tells h hr finished
      exact ⟨rs, logs_of_notes notes, ends⟩

theorem loud_unique {rs rs' : List Record} (h : k.Logs rs) (h' : k.Logs rs') :
    (rs.filter Record.isLoud).length = (rs'.filter Record.isLoud).length := by
  let journal : Log.Journal := { handler := some Log.loudHandler }
  have same : journal.logAll k.id rs = journal.logAll k.id rs' := by
    have both := (h journal).symm.trans (h' journal)
    exact congrArg (fun p : Except Failure Product × Workshop => p.2.journal) both
  have length := congrArg (fun j : Log.Journal => j.written.length) same
  rw [Log.Journal.length_written_loudHandler rfl, Log.Journal.length_written_loudHandler rfl] at length
  exact Nat.add_left_cancel length

theorem not_announced {rs : List Record} (logs : k.Logs rs) (silent : rs.filter Record.isLoud = [])
    (result : Except Failure Product) : ¬∃ rs, k.Logs rs ∧ Announces rs result := by
  rintro ⟨rs', logs', record, one, -⟩
  have length := loud_unique logs logs'
  rw [silent, one] at length
  cases length

end calls

theorem compile_announces {k : Call} (reached : k.emitted?.isSome = true)
    (finished : isAnswer k.result = true ∨ isUncollectible k.result = true) :
    ((∃ rs, k.Logs rs ∧ Announces rs k.result) ↔ k.lacking = false) ∧
      (k.lacking = true → ∃ rs, k.Logs rs ∧ rs.filter Record.isLoud = []) := by
  obtain ⟨rs, logs, ⟨missing, silent⟩ | ⟨whole, announced⟩⟩ := logs_cases reached finished
  · refine ⟨⟨fun announced => ?_, fun whole => ?_⟩, fun _ => ⟨rs, logs, silent⟩⟩
    · exact absurd announced (not_announced logs silent _)
    · rw [missing] at whole
      cases whole
  · refine ⟨⟨fun _ => whole, fun _ => ⟨rs, logs, announced⟩⟩, fun missing => ?_⟩
    rw [whole] at missing
    cases missing

/-- A call that returns with a warning. -/
theorem compile_announces_returned :
    let k : Call :=
      { compiler := {}
        context := { source := "class T: pass\nx = 1 is 1\n", className := "T" }
        workshop := { machine := { files := { folders := [["tmp"]] } } } }
    isReturned k.result = true ∧ ∃ rs, k.Logs rs ∧ Announces rs k.result := by
  intro k
  have seen : (k.emitted?.isSome, isReturned k.result, isAnswer k.result, k.lacking) =
      (true, true, true, false) := by decide +kernel
  simp only [Prod.mk.injEq] at seen
  obtain ⟨reached, returned, answer, whole⟩ := seen
  exact ⟨returned, (compile_announces reached (.inl answer)).1.2 whole⟩

/-- A source without its class is rejected, and no record above the debug level says so. -/
theorem compile_unannounced :
    let k : Call :=
      { compiler := {}
        context := { source := "x = 1\n", className := "T" }
        workshop := { machine := { files := { folders := [["tmp"]] } } } }
    (k.emitted?.isSome, isAnswer k.result, isRejected k.result) = (true, true, true) ∧
      ¬∃ rs, k.Logs rs ∧ Announces rs k.result := by
  intro k
  have seen : (k.emitted?.isSome, isAnswer k.result, isRejected k.result, k.lacking) =
      (true, true, true, true) := by decide +kernel
  simp only [Prod.mk.injEq] at seen
  obtain ⟨reached, answer, rejected, missing⟩ := seen
  refine ⟨by rw [reached, answer, rejected], ?_⟩
  obtain ⟨rs, logs, ⟨-, silent⟩ | ⟨whole, -⟩⟩ := logs_cases reached (.inl answer)
  · exact not_announced logs silent _
  · rw [missing] at whole
    cases whole

end Compiler

end Stencil
