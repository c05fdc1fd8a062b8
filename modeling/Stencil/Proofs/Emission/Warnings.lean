import Mathlib.Data.List.Forall2
import Stencil.Proofs.Emission.Report
import Stencil.Proofs.Script.Warning

/-!
The warnings of an emission. Whatever is issued while the stages are gone through is either put into
words for the report, if it is about the unit, or handed on to the host as it is; neither loses,
doubles or moves a warning, however far the emission comes (`emit_warnings`).
-/

namespace Stencil.Emission

open Script Run Interpreter

def isIssued (d : Diagnostic) : Bool := d.id == Diagnostic.issuedWarning

theorem filter_isIssued_found {es : List Event} (h : ∀ d ∈ faults es, isIssued d = false) :
    (found es).filter isIssued = (wordings es).filterMap Wording.diagnostic? := by
  rw [found, List.filter_filterMap, wordings, List.filterMap_filterMap]
  refine List.filterMap_congr fun e he => ?_
  cases e with
  | ended t =>
    obtain ⟨i, start, _ | d⟩ := t
    · rfl
    · exact Option.filter_some_neg (by simp [h d (List.mem_filterMap.2 ⟨_, he, rfl⟩)])
  | worded t =>
    change t.diagnostic?.filter isIssued = t.diagnostic?
    cases hd : t.diagnostic? with
    | none => rfl
    | some d => exact Option.filter_some_pos (beq_iff_eq.2 (t.id_of_diagnostic? hd).1)
  | _ => rfl

/-- What the report says of a warning: its category, what its message gives as it is put into words,
and the line that it is about. -/
def Wording.Says (t : Wording) (d : Diagnostic) : Prop :=
  ∃ category message o, (nameOf t.warning.kind).run t.start = (.ok category, t.start) ∧
    (Basic.laidOut top t.warning.message "").run t.start = (.ok message, o) ∧
    d = ⟨Diagnostic.issuedWarning, .warning, category ++ ": " ++ message,
      ⟨t.warning.file, max (t.warning.line - 1) 0, 0⟩⟩

theorem Wording.says {t : Wording} {text : String} (h : t.text? = some text) :
    ∃ d, t.diagnostic? = some d ∧ t.Says d := by
  rcases hw : (wording t.warning).run t.start with ⟨s | text', o⟩ <;>
    rw [text?, hw] at h <;> cases h
  obtain ⟨category, same⟩ := run_nameOf t.warning.kind t.start
  obtain ⟨_, _, named, later⟩ := of_run_bind hw
  cases named.symm.trans same
  obtain ⟨message, _, asked, last⟩ := of_run_bind later
  cases last
  exact ⟨_, by rw [diagnostic?, text?, hw]; rfl, _, message, _, named, asked, rfl⟩

theorem forall₂_filterMap {α β : Type} {R : α → β → Prop} {f : α → Option β} {as : List α}
    (h : ∀ a ∈ as, ∃ b, f a = some b ∧ R a b) : List.Forall₂ R as (as.filterMap f) := by
  induction as with
  | nil => exact .nil
  | cons a rest ih =>
    rw [List.forall_mem_cons] at h
    obtain ⟨⟨b, hf, hr⟩, h⟩ := h
    rw [List.filterMap_cons_some hf]
    exact .cons hr (ih h)

theorem Carried.wordings_eq {a : Assembly} {module : Nat} {m : Machine} {c : Course}
    (h : Carried a module m c) :
    (wordings c.events).map Wording.warning = (warnings c.events).filter (isOwn (ownFiles a)) ∧
      ∀ t ∈ wordings c.events, ∃ text, t.text? = some text := by
  have stages := h.warnings_eq
  simp only [Course.stages, List.forall_mem_cons, List.not_mem_nil, false_imp_iff, implies_true,
    and_true] at stages
  obtain ⟨loading, taking, checking, running⟩ := stages
  simp only [Course.events_eq, wordings_append, warnings_append, List.map_append,
    List.filter_append, List.forall_mem_append, loading.1, taking.1, checking.1, running.1, true_and]
  exact ⟨⟨⟨loading.2, taking.2⟩, checking.2⟩, running.2⟩

theorem run_wording_of_isPlain {w : Issued} (h : w.isPlain = true) (m : Machine) :
    ∃ text, (wording w).run m = (.ok text, m) := by
  obtain ⟨s, message⟩ := Issued.of_isPlain h
  obtain ⟨category, named⟩ := run_nameOf w.kind m
  exact ⟨category ++ ": " ++ s, by rw [wording, run_bind, named, message]; rfl⟩

theorem Voiced.of_isPlain {ws : List Issued} {m n : Machine} {es : List Event}
    (h : Voiced ws m n es) (plain : ∀ w ∈ ws, w.isPlain = true) (hm : m.quiet = m) :
    n = m ∧ es = ws.map fun w => .worded ⟨w, m⟩ := by
  induction h with
  | nil m => exact ⟨rfl, rfl⟩
  | @cons w rest m n o text es ran later ih =>
    rw [List.forall_mem_cons] at plain
    obtain ⟨_, same⟩ := run_wording_of_isPlain plain.1 m
    cases ran.symm.trans same
    have silent : m.issued = [] := by rw [← hm]; rfl
    rw [hm] at ih
    obtain ⟨rfl, rfl⟩ := ih plain.2 hm
    exact ⟨rfl, by rw [silent]; rfl⟩

theorem Drained.of_isPlain {own : List String} {fuel : Nat} {ws : List Issued} {m n : Machine}
    {es : List Event} (h : Drained own fuel ws m n es) (plain : ∀ w ∈ ws, w.isPlain = true)
    (hm : m.quiet = m) : n = m ∧ es = (ws.filter (isOwn own)).map fun w => .worded ⟨w, m⟩ := by
  cases h with
  | nil fuel m => exact ⟨rfl, rfl⟩
  | @more fuel w ws m n o es later voiced rest =>
    obtain ⟨rfl, rfl⟩ := voiced.of_isPlain (fun w hw => plain w (List.mem_of_mem_filter hw)) hm
    have silent (vs : List Issued) : warnings (vs.map fun w => .worded ⟨w, n⟩) = [] := by
      simp [warnings, Event.warning?]
    rw [silent] at rest
    cases rest
    exact ⟨rfl, List.append_nil _⟩

/-- Warnings that were handed on from a machine, one after the other: each is asked for its text, and
then goes through the filters as it is. -/
inductive Handed : List Issued → Machine → Machine → Prop
  | nil (m : Machine) : Handed [] m m
  | cons {w : Issued} {rest : List Issued} {m n o p : Machine} {text : String}
      (asked : (plainStep top w.message).run m = (.ok text, n)) (h : Service.Filtered w n o)
      (later : Handed rest o p) : Handed (w :: rest) m p

namespace Handed

variable {ws : List Issued} {m n : Machine}

theorem of_run (h : (handOn ws).run m = (.ok (), n)) : Handed ws m n := by
  induction ws generalizing m with
  | nil =>
    cases h
    exact .nil _
  | cons w rest ih =>
    obtain ⟨_, o, first, next⟩ := of_run_bind h
    obtain ⟨text, _, asked, filtered⟩ := Service.of_run_again first
    exact .cons asked filtered (ih next)

theorem eq_of_isPlain (h : Handed ws m n) (unfiltered : m.filters = [])
    (plain : ∀ w ∈ ws, w.isPlain = true) : n = { m with issued := m.issued ++ ws } := by
  induction h with
  | nil m => simp
  | @cons w rest m _ o p text asked h later ih =>
    rw [List.forall_mem_cons] at plain
    obtain ⟨text, same⟩ := Service.run_plainStep_of_isPlain top plain.1 m
    cases asked.symm.trans same
    cases h with
    | noted fits => rw [ih unfiltered plain.2, List.append_assoc, List.singleton_append]
    | dropped fits => cases fits.symm.trans (Service.treats_note _ unfiltered)

end Handed

theorem sorted_warnings {a : Assembly} {b : Builder} {m n : Machine} {e : Emission}
    (h : (emit a b).run m = (.ok e, n)) :
    (wordings (course a b m).events).map Wording.warning =
        (warnings (course a b m).events).filter (isOwn (ownFiles a)) ∧
      List.Forall₂ Wording.Says (wordings (course a b m).events) (e.diagnostics.filter isIssued) ∧
      Handed (foreignOf (ownFiles a) (course a b m).events) (m.resume (course a b m).left) n := by
  obtain ⟨carried, diagnostics, -, handed⟩ := emit_course h
  obtain ⟨worded, texts⟩ := carried.wordings_eq
  refine ⟨worded, ?_, .of_run handed⟩
  rw [diagnostics, filter_isIssued_found fun d hd => ?_]
  · refine forall₂_filterMap fun t ht => ?_
    obtain ⟨text, said⟩ := texts t ht
    exact t.says said
  · obtain ⟨i, fault⟩ := fault_of_fits carried.fits d hd
    exact beq_eq_false_iff_ne.2 fault.id_ne

theorem emit_warnings {a : Assembly} {b : Builder} {m n : Machine} {e : Emission}
    (h : (emit a b).run m = (.ok e, n)) :
    (wordings (course a b m).events).map Wording.warning =
        (warnings (course a b m).events).filter (fun w => (ownFiles a).contains w.file) ∧
      List.Forall₂ Wording.Says (wordings (course a b m).events) (e.diagnostics.filter isIssued) ∧
      Handed ((warnings (course a b m).events).filter fun w => !(ownFiles a).contains w.file)
        (m.resume (course a b m).left) n ∧
      (m.filters = [] → (∀ w ∈ warnings (course a b m).events, w.isPlain = true) →
        n.issued = m.issued ++
          (warnings (course a b m).events).filter fun w => !(ownFiles a).contains w.file) := by
  obtain ⟨worded, said, handed⟩ := sorted_warnings h
  refine ⟨worded, said, handed, fun unfiltered plain => ?_⟩
  have silent : (course a b m).left.issued = [] := by
    rw [← (emit_course h).1.quiet rfl]
    rfl
  rw [handed.eq_of_isPlain unfiltered fun w hw => plain w (List.mem_of_mem_filter hw)]
  change (m.issued ++ (course a b m).left.issued) ++ _ = _
  rw [silent, List.append_nil]
  rfl

theorem emit_warnings_shown :
    let text := "from warnings import warn\nclass W(Warning):\n def __str__(self): return 'y'\nwarn('x', W)\n"
    let a : Assembly := { name := "kiln.test.Unit", sources := [⟨1, text, "a.py"⟩] }
    let b : Builder := ⟨"kiln.test.Unit", "kiln.test", .runAndCollect, 0⟩
    let m : Machine :=
      { heap := #[.module {}, .module (.ofList [("warn", .routine "warnings.warn")])]
        modules := .ofList [("warnings", .object 1)] }
    ∃ e n, (emit a b).run m = (.ok e, n) ∧ e.diagnostics.map Diagnostic.message = ["W: y"] ∧
      List.Forall₂ Wording.Says (wordings (course a b m).events) (e.diagnostics.filter isIssued) ∧
      Handed ((warnings (course a b m).events).filter fun w => !(ownFiles a).contains w.file)
        (m.resume (course a b m).left) n := by
  intro text a b m
  have emitted : ((emit a b).run m).1.toOption.map (fun e => e.diagnostics.map Diagnostic.message) =
      some ["W: y"] := by decide +kernel
  obtain ⟨e, n, ran, messages⟩ := returned emitted
  obtain ⟨-, said, handed, -⟩ := emit_warnings ran
  exact ⟨e, n, ran, messages, said, handed⟩

end Stencil.Emission
