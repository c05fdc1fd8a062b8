import Stencil.Proofs.Emission.Passage

/-!
The report of an emission, read off its course. The report is what is found in the stages: their
faults, and in their drains the warnings about the unit in words. All other warnings are handed on in
the order in which they were issued, once the last stage is over (`emit_course`).
-/

namespace Stencil.Emission

open Script Run

theorem returned {ε σ α β : Type} {x : Except ε α × σ} {f : α → β} {b : β}
    (h : x.1.toOption.map f = some b) : ∃ a s, x = (.ok a, s) ∧ f a = b := by
  obtain ⟨_ | a, s⟩ := x
  · cases h
  · exact ⟨a, s, rfl, Option.some.inj h⟩

theorem Wording.id_of_diagnostic? {t : Wording} {d : Diagnostic} (h : t.diagnostic? = some d) :
    d.id = Diagnostic.issuedWarning ∧ d.isError = false := by
  obtain ⟨text, -, rfl⟩ := Option.map_eq_some_iff.1 h
  exact ⟨rfl, rfl⟩

theorem mem_found_of_fault {es : List Event} {d : Diagnostic} (h : d ∈ faults es) : d ∈ found es := by
  obtain ⟨event, he, hf⟩ := List.mem_filterMap.1 h
  cases event with
  | ended t => exact List.mem_filterMap.2 ⟨_, he, hf⟩
  | _ => cases hf

theorem fault_of_mem_found {es : List Event} {d : Diagnostic} (h : d ∈ found es)
    (number : d.id ≠ Diagnostic.issuedWarning) : d ∈ faults es := by
  obtain ⟨event, he, hf⟩ := List.mem_filterMap.1 h
  cases event with
  | ended t => exact List.mem_filterMap.2 ⟨_, he, hf⟩
  | worded t => exact absurd (t.id_of_diagnostic? hf).1 number
  | _ => cases hf

theorem filter_isError_found {es : List Event} (h : ∀ d ∈ faults es, d.isError = true) :
    (found es).filter Diagnostic.isError = faults es := by
  rw [found, List.filter_filterMap, faults]
  refine List.filterMap_congr fun e he => ?_
  cases e with
  | ended t =>
    obtain ⟨i, start, _ | d⟩ := t
    · rfl
    · exact Option.filter_some_pos (h d (List.mem_filterMap.2 ⟨_, he, rfl⟩))
  | worded t =>
    exact Option.filter_eq_none_iff.2 fun d hd => by simp [(t.id_of_diagnostic? hd).2]
  | _ => rfl

theorem failed_account (own : List String) {es : List Event}
    (h : ∀ d ∈ faults es, d.isError = true) :
    (Progress.account own {} es).failed = !(faults es).isEmpty := by
  have errors := filter_isError_found h
  change (found es).any Diagnostic.isError = _
  rw [← errors, Bool.eq_iff_iff]
  simp only [List.any_eq_true, Bool.not_eq_true', List.isEmpty_eq_false_iff_exists_mem,
    List.mem_filter]

theorem failed_of_gone {a : Assembly} {module : Nat} {m m₁ m₂ m₃ : Machine} {loaded : List Nat}
    {used : List Unit} {programs : List Program} {loading taking checking : List Event}
    (hl : Loads a module m loaded m₁ loading) (ht : Takes a module loaded m₁ used m₂ taking)
    (hc : Checks a m₂ programs m₃ checking) (own : List String) :
    (((Progress.account own {} loading).account own taking).account own checking).failed =
      !(faults (loading ++ taking ++ checking)).isEmpty := by
  rw [account_append, account_append, ← List.append_assoc]
  exact failed_account own (isError_of_fits (fits_of_gone hl ht hc))

theorem lift_bind_drain_eq {β : Type} (code : Run β) (own : List String) (reached : β → Progress) :
    (liftM code >>= fun b => drain own stepLimit (reached b) : Capture Progress) =
      liftM code >>= fun b => drain own stepLimit (reached b) >>= Pure.pure := by
  simp only [bind_pure]

theorem of_run_stages {a : Assembly} {module : Nat} {m n : Machine} {p : Progress}
    (hm : m.quiet = m) (h : (stages a module).run m = (.ok p, n)) :
    Carried a module m (courseOf a module m) ∧ n = (courseOf a module m).left ∧
      n.quiet = n ∧ p = Progress.account (ownFiles a) {} (courseOf a module m).events := by
  obtain ⟨loaded, m₁, loading, _, hl, q₁, h⟩ :=
    (loading_told a module).of_run_drained (fun _ _ => rfl) hm h
  obtain ⟨used, m₂, taking, _, ht, q₂, h⟩ :=
    (taking_told a module loaded).of_run_drained (fun _ _ => rfl) q₁ h
  obtain ⟨programs, m₃, checking, _, hc, q₃, h⟩ :=
    (checking_told a).of_run_drained (fun _ _ => rfl) q₂ h
  have gl := run_tellLoading.1 hl
  have gt := run_tellTaking.1 ht
  have gc := run_tellChecking.1 hc
  have reached : (((Progress.account (ownFiles a) {} loading).account (ownFiles a) taking).account
      (ownFiles a) checking) = Progress.account (ownFiles a) {} (loading ++ taking ++ checking) := by
    rw [account_append, account_append, ← List.append_assoc]
  rw [failed_of_gone gl gt gc, reached] at h
  change (tellLoading a module).run m = _ at hl
  change (tellTaking a module loaded).run m₁ = _ at ht
  change (tellChecking a).run m₂ = _ at hc
  cases hf : (faults (loading ++ taking ++ checking)).isEmpty with
  | false =>
    rw [hf] at h
    cases h
    have course : courseOf a module m = { left := n, loading, taking, checking } := by
      simp only [courseOf, hl, ht, hc, hf, Bool.false_eq_true, if_false]
    rw [course, Course.events_eq, List.append_nil]
    exact ⟨.held gl gt gc (by simpa using hf), rfl, q₃, rfl⟩
  | true =>
    rw [hf] at h
    replace h := (lift_bind_drain_eq (untilFault (runOne a.sources module) programs _) (ownFiles a)
      id).symm ▸ h
    obtain ⟨_, m₄, running, q, hr, q₄, h⟩ :=
      (running_told a module programs).of_run_drained (fun p _ => (rfl : id p = p)) q₃ h
    cases h
    change (tellRunning a module programs).run m₃ = _ at hr
    have course : courseOf a module m = { left := n, loading, taking, checking, running } := by
      simp only [courseOf, hl, ht, hc, hf, hr, if_true]
    rw [course, Course.events_eq, account_append]
    exact ⟨.ran gl gt gc (by simpa using hf) (of_run_tellRunning hr), rfl, q₄, rfl⟩

def Writes (code : Run Unit) : Prop := ∀ m, ∃ heap, code.run m = (.ok (), { m with heap })

theorem Writes.pure : Writes (Pure.pure ()) := fun m => ⟨m.heap, rfl⟩

theorem Writes.bind {code next : Run Unit} (first : Writes code) (h : Writes next) :
    Writes (code >>= fun _ => next) := by
  intro m
  obtain ⟨heap, ran⟩ := first m
  obtain ⟨later, ran'⟩ := h { m with heap }
  exact ⟨later, by rw [run_bind, ran]; exact ran'⟩

theorem writes_modifyHeap (ref : Nat) (o : Object) : Writes (modifyHeap ref o) := fun m =>
  ⟨m.heap.set! ref o, by simp [modifyHeap, Machine.resume, Machine.quiet]⟩

theorem writes_putAttribute (ref : Nat) (name : String) (v : Value) :
    Writes (putAttribute ref name v) := by
  intro m
  rw [putAttribute, run_bind, run_object]
  dsimp only
  split <;> first | exact writes_modifyHeap _ _ m | exact Writes.pure m

theorem writes_label (a : Assembly) (module : Nat) : Writes (label a module) := by
  obtain ⟨name, sources, dependencies, options⟩ := a
  have file : Writes (label ⟨name, sources, dependencies, { options with kind := .library }⟩
      module) := by
    cases sources with
    | nil => exact Writes.pure
    | cons s _ => exact writes_putAttribute module "__file__" (.text s.path)
  cases hk : options.kind with
  | console =>
    have console : label ⟨name, sources, dependencies, options⟩ module =
        putAttribute module "__name__" (.text "__main__") >>= fun _ =>
          label ⟨name, sources, dependencies, { options with kind := .library }⟩ module := by
      simp only [label, hk]
    rw [console]
    exact (writes_putAttribute module "__name__" (.text "__main__")).bind file
  | library =>
    have same : options = { options with kind := .library } := by rw [← hk]
    rwa [same]

theorem run_label (a : Assembly) (b : Builder) (m : Machine) :
    ∃ o, (label a b.module).run m = (.ok (), o) ∧ o.quiet.listening = start a b m ∧
      ∀ later, o.resume later = m.resume later := by
  obtain ⟨heap, ran⟩ := writes_label a b.module m
  refine ⟨_, ran, ?_, fun _ => rfl⟩
  have framed := congrArg Prod.snd ((label a b.module).framed m)
  rw [ran] at framed
  dsimp only at framed
  rw [framed, resume_run_quiet]
  rfl

/-- An emission is its stages on a machine whose module has its label; what they leave to the host is
handed on where they have led. -/
theorem of_run_emit {a : Assembly} {b : Builder} {m n : Machine} {e : Emission}
    (h : (emit a b).run m = (.ok e, n)) :
    ∃ p left, (stages a b.module).run (start a b m) = (.ok p, left) ∧ e.success = !p.failed ∧
      e.diagnostics = p.diagnostics ∧
      (handOn p.foreign).run (m.resume left.quiet) = (.ok (), n) := by
  obtain ⟨o, labelled, started, resumed⟩ := run_label a b m
  rw [emit, run_bind, labelled] at h
  obtain ⟨p, _, captured, h⟩ := of_run_bind h
  obtain ⟨left, staged, rfl⟩ := of_run_capturing captured
  rw [started] at staged
  obtain ⟨_, o', handed, h⟩ := of_run_bind h
  dsimp only at h
  rw [run_bind, run_get] at h
  cases h
  exact ⟨p, left, staged, rfl, rfl, resumed _ ▸ handed⟩

structure Sound (e : Emission) : Prop where
  success : e.success = true ↔ ∀ d ∈ e.diagnostics, d.isError = false
  placed : ∀ d ∈ e.diagnostics, 0 ≤ d.location.line ∧ 0 ≤ d.location.column

theorem emit_course {a : Assembly} {b : Builder} {m n : Machine} {e : Emission}
    (h : (emit a b).run m = (.ok e, n)) :
    Carried a b.module (start a b m) (course a b m) ∧
      e.diagnostics = found (course a b m).events ∧
      (e.success = true ↔ faults (course a b m).events = []) ∧
      (handOn (foreignOf (ownFiles a) (course a b m).events)).run (m.resume (course a b m).left) =
        (.ok (), n) := by
  obtain ⟨p, left, staged, success, diagnostics, handed⟩ := of_run_emit h
  obtain ⟨carried, rfl, quiet, rfl⟩ := of_run_stages rfl staged
  rw [failed_account (ownFiles a) carried.isError, Bool.not_not] at success
  rw [quiet] at handed
  exact ⟨carried, diagnostics, by rw [success, List.isEmpty_iff]; rfl, handed⟩

theorem emit_sound {a : Assembly} {b : Builder} {m n : Machine} {e : Emission}
    (h : (emit a b).run m = (.ok e, n)) : Sound e where
  success := by
    obtain ⟨p, left, -, success, diagnostics, -⟩ := of_run_emit h
    rw [success, diagnostics, Progress.failed]
    simp
  placed := by
    obtain ⟨carried, diagnostics, -, -⟩ := emit_course h
    intro d hd
    rw [diagnostics] at hd
    obtain ⟨event, he, hf⟩ := List.mem_filterMap.1 hd
    cases event with
    | ended t =>
      have fault : d ∈ faults (course a b m).events := List.mem_filterMap.2 ⟨_, he, hf⟩
      obtain ⟨i, fault⟩ := fault_of_fits carried.fits d fault
      exact fault.placed
    | worded t =>
      obtain ⟨text, -, rfl⟩ := Option.map_eq_some_iff.1 hf
      exact Location.ofOneBased_nonneg t.warning.file (some t.warning.line) none
    | _ => cases hf

end Stencil.Emission
