import Stencil.Emission

/-!
Accounts of what an emission does, in the order in which it happens. Every item that is gone through
begins and ends, and warnings come in between. The account is kept beside the report and has no part
in it: code that works on a report does what its account tells (`Tells`), and what the report has is
what is found in the account.
-/

namespace Stencil.Emission

open Script Run

inductive Item where
  | dependency (d : Dependency)
  | usage (name : String)
  | source (s : Source)
  | body (p : Program)

/-- An item that was gone through: the machine that it began on, and what was wrong with it. -/
structure Trial where
  item : Item
  start : Machine
  fault : Option Diagnostic

structure Wording where
  warning : Issued
  start : Machine

namespace Wording

def text? (t : Wording) : Option String := ((wording t.warning).run t.start).1.toOption

def diagnostic? (t : Wording) : Option Diagnostic := t.text?.map (diagnosticOf t.warning)

end Wording

inductive Event where
  | warned (w : Issued)
  | began (i : Item)
  | ended (t : Trial)
  | worded (t : Wording)

namespace Event

def warning? : Event → Option Issued
  | warned w => some w
  | _ => none

def begun? : Event → Option Item
  | began i => some i
  | _ => none

def trial? : Event → Option Trial
  | ended t => some t
  | _ => none

def wording? : Event → Option Wording
  | worded t => some t
  | _ => none

def fault? : Event → Option Diagnostic
  | ended t => t.fault
  | _ => none

/-- What an event brings into the report: what was wrong with an item, or a warning in words. -/
def found? : Event → Option Diagnostic
  | ended t => t.fault
  | worded t => t.diagnostic?
  | _ => none

end Event

def warnings (es : List Event) : List Issued := es.filterMap Event.warning?

def begun (es : List Event) : List Item := es.filterMap Event.begun?

def trials (es : List Event) : List Trial := es.filterMap Event.trial?

def wordings (es : List Event) : List Wording := es.filterMap Event.wording?

def faults (es : List Event) : List Diagnostic := es.filterMap Event.fault?

def found (es : List Event) : List Diagnostic := es.filterMap Event.found?

@[simp] theorem warnings_append (es later : List Event) :
    warnings (es ++ later) = warnings es ++ warnings later := List.filterMap_append

@[simp] theorem begun_append (es later : List Event) :
    begun (es ++ later) = begun es ++ begun later := List.filterMap_append

@[simp] theorem trials_append (es later : List Event) :
    trials (es ++ later) = trials es ++ trials later := List.filterMap_append

@[simp] theorem wordings_append (es later : List Event) :
    wordings (es ++ later) = wordings es ++ wordings later := List.filterMap_append

@[simp] theorem faults_append (es later : List Event) :
    faults (es ++ later) = faults es ++ faults later := List.filterMap_append

@[simp] theorem found_append (es later : List Event) :
    found (es ++ later) = found es ++ found later := List.filterMap_append

@[simp] theorem warnings_warned (ws : List Issued) : warnings (ws.map .warned) = ws := by
  induction ws with
  | nil => rfl
  | cons w ws ih => simpa [warnings, Event.warning?] using ih

@[simp] theorem begun_warned (ws : List Issued) : begun (ws.map .warned) = [] := by
  simp [begun, Event.begun?]

@[simp] theorem trials_warned (ws : List Issued) : trials (ws.map .warned) = [] := by
  simp [trials, Event.trial?]

@[simp] theorem wordings_warned (ws : List Issued) : wordings (ws.map .warned) = [] := by
  simp [wordings, Event.wording?]

@[simp] theorem found_warned (ws : List Issued) : found (ws.map .warned) = [] := by
  simp [found, Event.found?]

theorem faults_eq (es : List Event) : faults es = (trials es).filterMap Trial.fault := by
  rw [trials, List.filterMap_filterMap, faults]
  congr 1
  funext event
  cases event <;> rfl

theorem faults_eq_nil {es : List Event} :
    faults es = [] ↔ ∀ t ∈ trials es, t.fault = none := by
  rw [faults_eq, List.filterMap_eq_nil_iff]

/-- Code that gives an account of itself: what came of it on a machine, the machine that it left, and
what happened meanwhile. -/
structure Told (α : Type) where
  run : Machine → Except Stop α × Machine × List Event

namespace Told

variable {α β : Type}

instance : Monad Told where
  pure a := ⟨fun m => (.ok a, m, [])⟩
  bind t f := ⟨fun m => match t.run m with
    | (.ok a, m, es) => (((f a).run m).1, ((f a).run m).2.1, es ++ ((f a).run m).2.2)
    | (.error s, m, es) => (.error s, m, es)⟩

@[simp] theorem run_pure (a : α) (m : Machine) : (pure a : Told α).run m = (.ok a, m, []) := rfl

theorem run_bind_ok {t : Told α} {f : α → Told β} {m n : Machine} {a : α} {es : List Event}
    (h : t.run m = (.ok a, n, es)) :
    (t >>= f).run m = (((f a).run n).1, ((f a).run n).2.1, es ++ ((f a).run n).2.2) := by
  simp only [Bind.bind, h]

theorem run_bind_error {t : Told α} {f : α → Told β} {m n : Machine} {s : Stop} {es : List Event}
    (h : t.run m = (.error s, n, es)) : (t >>= f).run m = (.error s, n, es) := by
  simp only [Bind.bind, h]

theorem of_run_bind {t : Told α} {f : α → Told β} {m n : Machine} {b : β} {es : List Event}
    (h : (t >>= f).run m = (.ok b, n, es)) :
    ∃ a o before after, t.run m = (.ok a, o, before) ∧ (f a).run o = (.ok b, n, after) ∧
      es = before ++ after := by
  rcases ht : t.run m with ⟨s | a, o, before⟩
  · rw [run_bind_error ht] at h
    cases h
  · rw [run_bind_ok ht] at h
    rcases hf : (f a).run o with ⟨result, n', after⟩
    rw [hf] at h
    cases h
    exact ⟨a, o, before, after, rfl, hf, rfl⟩

end Told

def passage (i : Item) (start : Machine) (ws : List Issued) (fault : Option Diagnostic) :
    List Event :=
  .began i :: ws.map .warned ++ [.ended ⟨i, start, fault⟩]

section passage

variable (i : Item) (start : Machine) (ws : List Issued) (fault : Option Diagnostic)

@[simp] theorem warnings_passage : warnings (passage i start ws fault) = ws := by
  change warnings (ws.map .warned ++ [.ended ⟨i, start, fault⟩]) = ws
  rw [warnings_append, warnings_warned]
  exact List.append_nil ws

@[simp] theorem begun_passage : begun (passage i start ws fault) = [i] := by
  change i :: begun (ws.map .warned ++ [.ended ⟨i, start, fault⟩]) = [i]
  rw [begun_append, begun_warned]
  rfl

@[simp] theorem trials_passage : trials (passage i start ws fault) = [⟨i, start, fault⟩] := by
  change trials (ws.map .warned ++ [.ended ⟨i, start, fault⟩]) = [⟨i, start, fault⟩]
  rw [trials_append, trials_warned]
  rfl

theorem trials_passage_append (es : List Event) :
    trials (passage i start ws fault ++ es) = ⟨i, start, fault⟩ :: trials es := by
  rw [trials_append, trials_passage, List.singleton_append]

@[simp] theorem wordings_passage : wordings (passage i start ws fault) = [] := by
  change wordings (ws.map .warned ++ [.ended ⟨i, start, fault⟩]) = []
  rw [wordings_append, wordings_warned]
  rfl

@[simp] theorem found_passage : found (passage i start ws fault) = fault.toList := by
  change found (ws.map .warned ++ [.ended ⟨i, start, fault⟩]) = _
  rw [found_append, found_warned]
  cases fault <;> rfl

@[simp] theorem faults_passage : faults (passage i start ws fault) = fault.toList := by
  rw [faults_eq, trials_passage]
  cases fault <;> rfl

end passage

def faultOf {α : Type} : Except Diagnostic α → Option Diagnostic
  | .ok _ => none
  | .error d => some d

/-- Goes through one item; what it issues on a quiet machine happens before it ends. -/
def tell {α : Type} (i : Item) (step : Run (Except Diagnostic α)) : Told (Except Diagnostic α) where
  run m := match step.run m with
    | (.ok result, n) => (.ok result, n.quiet, passage i m n.issued (faultOf result))
    | (.error s, n) => (.error s, n.quiet, .began i :: n.issued.map .warned)

def tellEach {ι α : Type} (item : ι → Item) (step : ι → Run (Except Diagnostic α)) :
    List ι → Told (List α)
  | [] => return []
  | i :: rest => do
    match ← tell (item i) (step i) with
    | .error _ => tellEach item step rest
    | .ok a => return a :: (← tellEach item step rest)

def tellBodies (step : Program → Run (Except Diagnostic Unit)) : List Program → Told Unit
  | [] => return ()
  | p :: rest => do
    match ← tell (.body p) (step p) with
    | .error _ => return ()
    | .ok _ => tellBodies step rest

theorem report_report (p : Progress) (ds later : List Diagnostic) :
    (p.report ds).report later = p.report (ds ++ later) := by
  simp [Progress.report]

@[simp] theorem report_nil (p : Progress) : p.report [] = p := by
  simp [Progress.report]

structure Onward (m n : Machine) : Prop where
  issued : n.issued = []
  files : n.files = m.files
  folders : n.folders = m.folders
  filters : n.filters = m.filters

namespace Onward

theorem refl (m : Machine) : Onward m m.quiet := ⟨rfl, rfl, rfl, rfl⟩

theorem run {α : Type} (code : Run α) (m : Machine) : Onward m (code.run m.quiet).2.quiet where
  issued := rfl
  files := by rw [← resume_run_quiet]; rfl
  folders := by rw [← resume_run_quiet]; rfl
  filters := by rw [← resume_run_quiet]; rfl

theorem trans {m n o : Machine} (h : Onward m n) (h' : Onward n o) : Onward m o :=
  ⟨h'.issued, h'.files.trans h.files, h'.folders.trans h.folders, h'.filters.trans h.filters⟩

theorem quiet_eq {m n : Machine} (h : Onward m n) : n.quiet = n := by
  cases n
  simpa [Machine.quiet] using h.issued.symm

theorem resume_issuing {m n : Machine} (h : Onward m n) (silent : m.quiet = m) (ws : List Issued) :
    m.resume (n.issuing ws) = n.issuing ws := by
  obtain ⟨-, hf, hd, hl⟩ := h
  have none : m.issued = [] := by rw [← silent]; rfl
  cases n
  simp_all [Machine.resume, Machine.issuing]

theorem quiet_resume {m n : Machine} (h : Onward m n) (ws : List Issued) :
    (m.resume (n.issuing ws)).quiet = n := by
  obtain ⟨hi, hf, hd, hl⟩ := h
  cases n
  simp_all [Machine.quiet, Machine.resume, Machine.issuing]

end Onward

/-- Code that works on a progress does what is told: it reports what is found and issues what the
account says was issued. -/
structure Tells {α β : Type} (pack : Progress → α → β) (t : Told α) (code : Progress → Run β) :
    Prop where
  run : ∀ p m, (code p).run m =
    ((t.run m.quiet).1.map (pack (p.report (found (t.run m.quiet).2.2))),
      m.resume ((t.run m.quiet).2.1.issuing (warnings (t.run m.quiet).2.2)))
  onward : ∀ m, Onward m (t.run m.quiet).2.1

namespace Tells

variable {α β γ : Type} {pack : Progress → α → β}

theorem pure (a : α) : Tells pack (Pure.pure a) (fun p => Pure.pure (pack p a)) where
  run p m := by
    change (Except.ok (pack p a), m) = (Except.ok (pack (p.report []) a), m.resume m.quiet)
    rw [report_nil, Machine.resume_self]
  onward m := .refl m

theorem bind {t : Told γ} {code : Progress → Run (Progress × γ)} {u : γ → Told α}
    {next : Progress × γ → Run β} (first : Tells Prod.mk t code)
    (h : ∀ c, Tells pack (u c) (fun p => next (p, c))) :
    Tells pack (t >>= u) (fun p => code p >>= next) where
  run p m := by
    have onward := first.onward m
    -- what goes on finds the warnings on the machine, which its account begins without
    rw [run_bind, first.run p m]
    rcases ht : t.run m.quiet with ⟨s | c, n, es⟩ <;> rw [ht] at onward
    · rw [Told.run_bind_error ht]
      rfl
    · rw [Told.run_bind_ok ht]
      change (next (p.report (found es), c)).run (m.resume (n.issuing (warnings es))) = _
      rw [(h c).run, onward.quiet_resume, report_report, Machine.resume_resume_issuing,
        found_append, warnings_append, Machine.issuing_issued]
  onward m := by
    have onward := first.onward m
    rcases ht : t.run m.quiet with ⟨s | c, n, es⟩ <;> rw [ht] at onward
    · rw [Told.run_bind_error ht]
      exact onward
    · rw [Told.run_bind_ok ht]
      have later := (h c).onward n
      rw [onward.quiet_eq] at later
      exact onward.trans later

theorem step (i : Item) (step : Run (Except Diagnostic γ)) :
    Tells Prod.mk (tell i step)
      (fun p => step >>= fun result => Pure.pure (p.report (faultOf result).toList, result)) where
  run p m := by
    rw [run_bind, step.framed m]
    rcases hs : step.run m.quiet with ⟨s | result, n⟩
    · have noted : warnings (.began i :: n.issued.map .warned) = n.issued :=
        warnings_warned n.issued
      simp only [tell, hs, noted]
      rfl
    · simp only [tell, hs, warnings_passage, found_passage]
      rfl
  onward m := by
    have onward := Onward.run step m
    rcases hs : step.run m.quiet with ⟨s | result, n⟩ <;> rw [hs] at onward <;>
      simpa only [tell, hs] using onward

end Tells

def eachAfter {ι α : Type} (step : ι → Run (Except Diagnostic α)) (rest : List ι) :
    Progress × Except Diagnostic α → Run (Progress × List α)
  | (p, .error _) => eachOf step rest p
  | (p, .ok a) => (fun later => (later.1, a :: later.2)) <$> eachOf step rest p

theorem eachOf_cons {ι α : Type} (step : ι → Run (Except Diagnostic α)) (i : ι) (rest : List ι)
    (p : Progress) :
    eachOf step (i :: rest) p =
      (step i >>= fun result => pure (p.report (faultOf result).toList, result)) >>=
        eachAfter step rest := by
  rw [eachOf, bind_assoc]
  refine bind_congr fun result => ?_
  cases result <;> simp [faultOf, eachAfter]

theorem eachOf_told {ι α : Type} (item : ι → Item) (step : ι → Run (Except Diagnostic α))
    (is : List ι) : Tells Prod.mk (tellEach item step is) (eachOf step is) := by
  induction is with
  | nil => exact Tells.pure []
  | cons i rest ih =>
    rw [funext (eachOf_cons step i rest)]
    refine (Tells.step (item i) (step i)).bind fun result => ?_
    cases result with
    | error d => exact ih
    | ok a =>
      simp only [eachAfter, map_eq_pure_bind]
      exact ih.bind fun others => Tells.pure (a :: others)

def untilAfter (step : Program → Run (Except Diagnostic Unit)) (rest : List Program) :
    Progress × Except Diagnostic Unit → Run Progress
  | (p, .error _) => pure p
  | (p, .ok _) => untilFault step rest p

theorem untilFault_cons (step : Program → Run (Except Diagnostic Unit)) (program : Program)
    (rest : List Program) (p : Progress) :
    untilFault step (program :: rest) p =
      (step program >>= fun result => pure (p.report (faultOf result).toList, result)) >>=
        untilAfter step rest := by
  rw [untilFault, bind_assoc]
  refine bind_congr fun result => ?_
  cases result <;> simp [faultOf, untilAfter]

theorem untilFault_told (step : Program → Run (Except Diagnostic Unit)) (ps : List Program) :
    Tells (fun p _ => p) (tellBodies step ps) (untilFault step ps) := by
  induction ps with
  | nil => exact Tells.pure ()
  | cons program rest ih =>
    rw [funext (untilFault_cons step program rest)]
    refine (Tells.step (.body program) (step program)).bind fun result => ?_
    cases result with
    | error d => exact Tells.pure ()
    | ok _ => exact ih

end Stencil.Emission
