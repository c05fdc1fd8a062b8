import Stencil.Proofs.Emission.Escape
import Stencil.Proofs.Emission.Warnings

/-!
When an emission makes its report. Items are gone through one after the other, and the emission ends
early if one of them ends it (`emit_escapes`). Whatever else is wrong with an item is in the report.
-/

namespace Stencil.Emission

open Script Run

theorem tell_error_iff {α : Type} {i : Item} {step : Run (Except Diagnostic α)} {m : Machine}
    {s : Stop} : ((tell i step).run m).1 = .error s ↔ step.Stops m s := by
  rw [Stops]
  rcases hs : step.run m with ⟨s' | r, o⟩ <;> simp only [tell, hs]

theorem Told.bind_error_iff {α β : Type} {t : Told α} {f : α → Told β} {m : Machine} {s : Stop} :
    ((t >>= f).run m).1 = .error s ↔
      (t.run m).1 = .error s ∨
        ∃ a n es, t.run m = (.ok a, n, es) ∧ ((f a).run n).1 = .error s := by
  rcases ht : t.run m with ⟨s' | a, n, es⟩
  · rw [Told.run_bind_error ht]
    simp
  · rw [Told.run_bind_ok ht]
    refine ⟨fun h => .inr ⟨a, n, es, rfl, h⟩, ?_⟩
    rintro (⟨⟨⟩⟩ | ⟨_, _, _, ⟨⟩, h⟩)
    exact h

section loop

variable {ι α : Type} {item : ι → Item} {step : ι → Run (Except Diagnostic α)} {m : Machine} {s : Stop}

theorem tellEach_cons_error_iff {i : ι} {rest : List ι} :
    ((tellEach item step (i :: rest)).run m).1 = .error s ↔
      (step i).Stops m s ∨ ∃ r o, (step i).run m = (.ok r, o) ∧
        ((tellEach item step rest).run o.quiet).1 = .error s := by
  rw [tellEach, Told.bind_error_iff, tell_error_iff]
  refine or_congr_right ?_
  constructor
  · rintro ⟨r, n, es, told, h⟩
    obtain ⟨o, ran, rfl, rfl⟩ := of_run_tell told
    refine ⟨r, o, ran, ?_⟩
    cases r with
    | error d => exact h
    | ok a =>
      obtain h | ⟨_, _, _, -, ⟨⟩⟩ := Told.bind_error_iff.1 h
      exact h
  · rintro ⟨r, o, ran, h⟩
    refine ⟨r, _, _, run_tell ran, ?_⟩
    cases r with
    | error d => exact h
    | ok a => exact Told.bind_error_iff.2 (.inl h)

/-- Going through items ends early at one that ends it, once those before it were gone through. -/
theorem tellEach_error_iff {is : List ι} :
    ((tellEach item step is).run m).1 = .error s ↔
      ∃ before i after as n es, is = before ++ i :: after ∧ Gone item step before m as n es ∧
        (step i).Stops n s := by
  constructor
  · intro h
    induction is generalizing m with
    | nil => cases h
    | cons i rest ih =>
      obtain stopped | ⟨r, o, ran, h⟩ := tellEach_cons_error_iff.1 h
      · exact ⟨[], i, rest, [], m, [], rfl, .nil m, stopped⟩
      · obtain ⟨before, j, after, as, n, es, rfl, gone, stopped⟩ := ih h
        cases r with
        | error d => exact ⟨i :: before, j, after, as, n, _, rfl, .fault ran gone, stopped⟩
        | ok a => exact ⟨i :: before, j, after, a :: as, n, _, rfl, .well ran gone, stopped⟩
  · rintro ⟨before, i, after, as, n, es, rfl, gone, stopped⟩
    induction gone with
    | nil m => exact tellEach_cons_error_iff.2 (.inl stopped)
    | fault ran later ih | well ran later ih =>
      exact tellEach_cons_error_iff.2 (.inr ⟨_, _, ran, ih stopped⟩)

theorem tellBodies_cons_error_iff {step : Program → Run (Except Diagnostic Unit)} {p : Program}
    {rest : List Program} :
    ((tellBodies step (p :: rest)).run m).1 = .error s ↔
      (step p).Stops m s ∨ ∃ o, (step p).run m = (.ok (.ok ()), o) ∧
        ((tellBodies step rest).run o.quiet).1 = .error s := by
  rw [tellBodies, Told.bind_error_iff, tell_error_iff]
  refine or_congr_right ?_
  constructor
  · rintro ⟨r, n, es, told, h⟩
    obtain ⟨o, ran, rfl, rfl⟩ := of_run_tell told
    cases r with
    | error d => cases h
    | ok _ => exact ⟨o, ran, h⟩
  · rintro ⟨o, ran, h⟩
    exact ⟨.ok (), _, _, run_tell ran, h⟩

theorem tellBodies_error_iff {step : Program → Run (Except Diagnostic Unit)} {ps : List Program} :
    ((tellBodies step ps).run m).1 = .error s ↔
      ∃ before p after n es, ps = before ++ p :: after ∧ Ran step before m n es ∧ faults es = [] ∧
        (step p).Stops n s := by
  constructor
  · intro h
    induction ps generalizing m with
    | nil => cases h
    | cons p rest ih =>
      obtain stopped | ⟨o, ran, h⟩ := tellBodies_cons_error_iff.1 h
      · exact ⟨[], p, rest, m, [], rfl, .nil m, rfl, stopped⟩
      · obtain ⟨before, q, after, n, es, rfl, gone, well, stopped⟩ := ih h
        exact ⟨p :: before, q, after, n, _, rfl, .well ran gone, by simpa using well, stopped⟩
  · rintro ⟨before, p, after, n, es, rfl, gone, well, stopped⟩
    induction gone with
    | nil m => exact tellBodies_cons_error_iff.2 (.inl stopped)
    | fault ran => simp at well
    | well ran later ih =>
      rw [faults_append, List.append_eq_nil_iff] at well
      exact tellBodies_cons_error_iff.2 (.inr ⟨_, ran, ih well.2 stopped⟩)

end loop

/-- Ways in which a drain does not end well: a warning about the unit cannot be put into words, or
there is no end to what is issued meanwhile. -/
inductive Unworded (own : List String) (s : Stop) : Nat → List Issued → Machine → Prop
  | spent {ws : List Issued} {m : Machine} (endless : s = .exhausted) : Unworded own s 0 ws m
  | here {fuel : Nat} {w x : Issued} {ws before after : List Issued} {m n : Machine}
      {es : List Event} (here : (w :: ws).filter (isOwn own) = before ++ x :: after)
      (voiced : Voiced before m n es) (wordless : (wording x).Stops n s) :
      Unworded own s (fuel + 1) (w :: ws) m
  | later {fuel : Nat} {w : Issued} {ws : List Issued} {m n : Machine} {es : List Event}
      (voiced : Voiced ((w :: ws).filter (isOwn own)) m n es)
      (rest : Unworded own s fuel (warnings es) n) : Unworded own s (fuel + 1) (w :: ws) m

section drain

variable {own : List String} {m : Machine} {s : Stop}

theorem tellWording_error_iff {w : Issued} :
    ((tellWording w).run m).1 = .error s ↔ (wording w).Stops m s := by
  rw [Stops]
  rcases hw : (wording w).run m with ⟨s' | text, o⟩ <;> simp [tellWording, hw, Except.map]

theorem tellWordings_cons_error_iff {w : Issued} {rest : List Issued} :
    ((tellWordings (w :: rest)).run m).1 = .error s ↔
      (wording w).Stops m s ∨ ∃ text o, (wording w).run m = (.ok text, o) ∧
        ((tellWordings rest).run o.quiet).1 = .error s := by
  rw [tellWordings, Told.bind_error_iff, tellWording_error_iff]
  refine or_congr_right ?_
  constructor
  · rintro ⟨_, n, es, told, h⟩
    obtain ⟨text, o, ran, rfl, -⟩ := of_run_tellWording told
    exact ⟨text, o, ran, h⟩
  · rintro ⟨text, o, ran, h⟩
    exact ⟨(), _, _, run_tellWording ran, h⟩

/-- Putting warnings into words ends early at one that has none, once those before it were put into
words. -/
theorem tellWordings_error_iff {ws : List Issued} :
    ((tellWordings ws).run m).1 = .error s ↔
      ∃ before x after n es, ws = before ++ x :: after ∧ Voiced before m n es ∧
        (wording x).Stops n s := by
  constructor
  · intro h
    induction ws generalizing m with
    | nil => cases h
    | cons w rest ih =>
      obtain wordless | ⟨text, o, ran, h⟩ := tellWordings_cons_error_iff.1 h
      · exact ⟨[], w, rest, m, [], rfl, .nil m, wordless⟩
      · obtain ⟨before, x, after, n, es, rfl, voiced, wordless⟩ := ih h
        exact ⟨w :: before, x, after, n, _, rfl, .cons ran voiced, wordless⟩
  · rintro ⟨before, x, after, n, es, rfl, voiced, wordless⟩
    induction voiced with
    | nil m => exact tellWordings_cons_error_iff.2 (.inl wordless)
    | cons ran later ih => exact tellWordings_cons_error_iff.2 (.inr ⟨_, _, ran, ih wordless⟩)

theorem tellDrain_error_iff {fuel : Nat} {ws : List Issued} :
    ((tellDrain own fuel ws).run m).1 = .error s ↔ Unworded own s fuel ws m := by
  induction fuel generalizing ws m with
  | zero =>
    constructor
    · rintro ⟨⟩
      exact .spent rfl
    · rintro (rfl | _)
      rfl
  | succ fuel ih =>
    cases ws with
    | nil => exact ⟨fun h => (by cases h), fun h => by cases h⟩
    | cons w ws =>
      -- one round either stops at a warning, or hands what was issued meanwhile to the next
      rcases ht : (tellWordings ((w :: ws).filter (isOwn own))).run m with ⟨s' | _, n, es⟩
      · rw [tellDrain, Told.run_bind_error (Told.run_heard_error ht)]
        constructor
        · rintro ⟨⟩
          obtain ⟨before, x, after, n, es, cut, voiced, wordless⟩ :=
            tellWordings_error_iff.1 (congrArg Prod.fst ht)
          exact .here cut voiced wordless
        · rintro (_ | ⟨cut, voiced, wordless⟩ | ⟨voiced, -⟩)
          · rw [← tellWordings_error_iff.2 ⟨_, _, _, _, _, cut, voiced, wordless⟩, ht]
          · rw [voiced.run] at ht
            cases ht
      · rw [tellDrain, Told.run_bind_ok (Told.run_heard ht)]
        refine ih.trans ⟨fun rest => .later (.of_run ht) rest, ?_⟩
        rintro (_ | ⟨cut, voiced, wordless⟩ | ⟨voiced, rest⟩)
        · have stopped := tellWordings_error_iff.2 ⟨_, _, _, _, _, cut, voiced, wordless⟩
          rw [ht] at stopped
          cases stopped
        · rw [voiced.run] at ht
          cases ht
          exact rest

theorem Told.drained_error_iff {α : Type} {t : Told α} :
    ((t.drained own).run m).1 = .error s ↔
      (t.run m).1 = .error s ∨ ∃ a o es, t.run m = (.ok a, o, es) ∧
        Unworded own s stepLimit (warnings es) o := by
  rcases ht : t.run m with ⟨s' | a, o, es⟩
  · rw [drained, run_bind_error (run_heard_error ht)]
    simp
  · rw [drained, run_bind_ok (run_heard ht)]
    refine bind_error_iff.trans ?_
    rw [tellDrain_error_iff]
    constructor
    · rintro (h | ⟨_, _, _, -, ⟨⟩⟩)
      exact .inr ⟨a, o, es, rfl, h⟩
    · rintro (⟨⟨⟩⟩ | ⟨_, _, _, ⟨⟩, h⟩)
      exact .inl h

theorem tellEach_drained_error_iff {ι α : Type} {item : ι → Item}
    {step : ι → Run (Except Diagnostic α)} {is : List ι} :
    (((tellEach item step is).drained own).run m).1 = .error s ↔
      (∃ before i after as n es, is = before ++ i :: after ∧ Gone item step before m as n es ∧
        (step i).Stops n s) ∨
      ∃ as n es, Gone item step is m as n es ∧ Unworded own s stepLimit (warnings es) n := by
  rw [Told.drained_error_iff, tellEach_error_iff]
  refine or_congr_right <| exists_congr fun as => exists_congr fun n => exists_congr fun es => ?_
  exact and_congr_left fun _ => ⟨Gone.of_run, Gone.run⟩

theorem tellBodies_drained_error_iff {step : Program → Run (Except Diagnostic Unit)}
    {ps : List Program} :
    (((tellBodies step ps).drained own).run m).1 = .error s ↔
      (∃ before p after n es, ps = before ++ p :: after ∧ Ran step before m n es ∧ faults es = [] ∧
        (step p).Stops n s) ∨
      ∃ n es, Ran step ps m n es ∧ Unworded own s stepLimit (warnings es) n := by
  rw [Told.drained_error_iff, tellBodies_error_iff]
  refine or_congr_right ⟨?_, ?_⟩
  · rintro ⟨_, n, es, ran, unworded⟩
    exact ⟨n, es, .of_run ran, unworded⟩
  · rintro ⟨n, es, ran, unworded⟩
    exact ⟨(), n, es, ran.run, unworded⟩

end drain

/-- Ways in which the stages of an emission end early on a machine: an item ends one of them, once all
before it was gone through, or the drain of a stage does not end well. -/
inductive Escapes (a : Assembly) (module : Nat) (m : Machine) (s : Stop) : Prop
  | loading {before after : List Dependency} {d : Dependency} {as : List Nat} {n : Machine}
      {es : List Event} (here : a.dependencies = before ++ d :: after)
      (gone : Gone .dependency (bindOne module) before m as n es)
      (escape : Escape a module as n s (.dependency d))
  | afterLoading {loaded : List Nat} {n : Machine} {es : List Event}
      (gone : Gone .dependency (bindOne module) a.dependencies m loaded n es)
      (unworded : Unworded (ownFiles a) s stepLimit (warnings es) n)
  | taking {before after : List String} {name : String} {loaded : List Nat} {us : List Unit}
      {m₁ n : Machine} {loading es : List Event} (hl : Loads a module m loaded m₁ loading)
      (here : a.options.usings = before ++ name :: after)
      (gone : Gone .usage (useOne module loaded) before m₁ us n es)
      (escape : Escape a module loaded n s (.usage name))
  | afterTaking {loaded : List Nat} {us : List Unit} {m₁ n : Machine} {loading es : List Event}
      (hl : Loads a module m loaded m₁ loading)
      (gone : Gone .usage (useOne module loaded) a.options.usings m₁ us n es)
      (unworded : Unworded (ownFiles a) s stepLimit (warnings es) n)
  | checking {before after : List Source} {t : Source} {loaded : List Nat} {us : List Unit}
      {ps : List Program} {m₁ m₂ n : Machine} {loading taking es : List Event}
      (hl : Loads a module m loaded m₁ loading) (ht : Takes a module loaded m₁ us m₂ taking)
      (here : a.sources = before ++ t :: after)
      (gone : Gone .source (checkOne a.options.optimize) before m₂ ps n es)
      (escape : Escape a module loaded n s (.source t))
  | afterChecking {loaded : List Nat} {us : List Unit} {ps : List Program} {m₁ m₂ n : Machine}
      {loading taking es : List Event} (hl : Loads a module m loaded m₁ loading)
      (ht : Takes a module loaded m₁ us m₂ taking)
      (gone : Gone .source (checkOne a.options.optimize) a.sources m₂ ps n es)
      (unworded : Unworded (ownFiles a) s stepLimit (warnings es) n)
  | running {before after : List Program} {p : Program} {loaded : List Nat} {us : List Unit}
      {m₁ m₂ m₃ n : Machine} {loading taking checking es : List Event}
      (hl : Loads a module m loaded m₁ loading) (ht : Takes a module loaded m₁ us m₂ taking)
      (hc : Checks a m₂ (before ++ p :: after) m₃ checking)
      (well : faults (loading ++ taking ++ checking) = [])
      (ran : Ran (runOne a.sources module) before m₃ n es) (ended : faults es = [])
      (escape : Escape a module loaded n s (.body p))
  | afterRunning {ps : List Program} {loaded : List Nat} {us : List Unit} {m₁ m₂ m₃ n : Machine}
      {loading taking checking es : List Event} (hl : Loads a module m loaded m₁ loading)
      (ht : Takes a module loaded m₁ us m₂ taking) (hc : Checks a m₂ ps m₃ checking)
      (well : faults (loading ++ taking ++ checking) = [])
      (ran : Ran (runOne a.sources module) ps m₃ n es)
      (unworded : Unworded (ownFiles a) s stepLimit (warnings es) n)

section stage

variable {α β γ : Type} {pack : Progress → α → β} {t : Told α} {code : Progress → Run β}
  {reached : β → Progress} {own : List String} {p : Progress} {m : Machine} {s : Stop}

theorem Tells.drained_error_iff {next : β → Progress → Capture γ} (h : Tells pack t code)
    (hr : ∀ p a, reached (pack p a) = p) (hn : ∀ q q' a, next (pack q a) = next (pack q' a))
    (hm : m.quiet = m) :
    (Capture.run (liftM (code p) >>= fun b => drain own stepLimit (reached b) >>= next b) m).1 =
        .error s ↔
      ((t.drained own).run m).1 = .error s ∨ ∃ a o es, (t.drained own).run m = (.ok a, o, es) ∧
        ((next (pack p a) (p.account own es)).run o).1 = .error s := by
  rcases ht : (t.drained own).run m with ⟨s' | a, o, es⟩
  · obtain ⟨rest, stopped⟩ := h.run_drained_error hr hm ht p next
    rw [stopped]
    simp
  · obtain ⟨-, q, ran⟩ := h.run_drained_ok hr hm ht p next
    rw [ran, hn q p]
    refine ⟨fun h => .inr ⟨a, o, es, rfl, h⟩, ?_⟩
    rintro (⟨⟨⟩⟩ | ⟨_, _, _, ⟨⟩, h⟩)
    exact h

theorem Tells.last_error_iff (h : Tells pack t code) (reached : β → Progress)
    (hr : ∀ p a, reached (pack p a) = p) (hm : m.quiet = m) :
    (Capture.run (liftM (code p) >>= fun b => drain own stepLimit (reached b)) m).1 = .error s ↔
      ((t.drained own).run m).1 = .error s := by
  rw [lift_bind_drain_eq, h.drained_error_iff hr (fun _ _ _ => rfl) hm]
  refine or_iff_left ?_
  rintro ⟨_, _, _, -, ⟨⟩⟩

end stage

section stages

variable {a : Assembly} {module : Nat} {m : Machine} {s : Stop}

/-- The stages of an emission end early where one of them does, once those before it came to an end. -/
theorem stages_error_iff_told (hm : m.quiet = m) :
    ((stages a module).run m).1 = .error s ↔
      ((tellLoading a module).run m).1 = .error s ∨
      ∃ loaded m₁ loading, (tellLoading a module).run m = (.ok loaded, m₁, loading) ∧
        (((tellTaking a module loaded).run m₁).1 = .error s ∨
        ∃ us m₂ taking, (tellTaking a module loaded).run m₁ = (.ok us, m₂, taking) ∧
          (((tellChecking a).run m₂).1 = .error s ∨
          ∃ ps m₃ checking, (tellChecking a).run m₂ = (.ok ps, m₃, checking) ∧
            faults (loading ++ taking ++ checking) = [] ∧
            ((tellRunning a module ps).run m₃).1 = .error s)) := by
  refine ((loading_told a module).drained_error_iff (fun _ _ => rfl) (fun _ _ _ => rfl) hm).trans ?_
  refine or_congr_right <| exists_congr fun loaded => exists_congr fun m₁ => exists_congr
    fun loading => and_congr_right fun hl => ?_
  replace hl := run_tellLoading.1 hl
  have q₁ := hl.quiet hm
  refine ((taking_told a module loaded).drained_error_iff (fun _ _ => rfl) (fun _ _ _ => rfl)
    q₁).trans ?_
  refine or_congr_right <| exists_congr fun us => exists_congr fun m₂ => exists_congr
    fun taking => and_congr_right fun ht => ?_
  replace ht := run_tellTaking.1 ht
  have q₂ := ht.quiet q₁
  refine ((checking_told a).drained_error_iff (fun _ _ => rfl) (fun _ _ _ => rfl) q₂).trans ?_
  refine or_congr_right <| exists_congr fun ps => exists_congr fun m₃ => exists_congr
    fun checking => and_congr_right fun hc => ?_
  replace hc := run_tellChecking.1 hc
  rw [failed_of_gone hl ht hc, ← List.isEmpty_iff]
  cases (faults (loading ++ taking ++ checking)).isEmpty with
  | false => exact ⟨fun h => (by cases h), fun h => by cases h.1⟩
  | true =>
    refine ((running_told a module ps).last_error_iff id (fun _ _ => rfl) (hc.quiet q₂)).trans ?_
    exact (and_iff_right rfl).symm

theorem escapes_of_stages (hm : m.quiet = m) (h : ((stages a module).run m).1 = .error s) :
    Escapes a module m s := by
  obtain h | ⟨loaded, m₁, loading, hl, h⟩ := (stages_error_iff_told hm).1 h
  · obtain ⟨before, d, after, as, n, es, here, gone, stopped⟩ | ⟨loaded, n, es, gone, unworded⟩ :=
      tellEach_drained_error_iff.1 h
    · exact .loading here gone (stops_bindOne.1 stopped)
    · exact .afterLoading gone unworded
  replace hl := run_tellLoading.1 hl
  obtain h | ⟨us, m₂, taking, ht, h⟩ := h
  · obtain ⟨before, name, after, us, n, es, here, gone, stopped⟩ | ⟨us, n, es, gone, unworded⟩ :=
      tellEach_drained_error_iff.1 h
    · exact .taking hl here gone (stops_useOne.1 stopped)
    · exact .afterTaking hl gone unworded
  replace ht := run_tellTaking.1 ht
  obtain h | ⟨ps, m₃, checking, hc, well, h⟩ := h
  · obtain ⟨before, t, after, ps, n, es, here, gone, stopped⟩ | ⟨ps, n, es, gone, unworded⟩ :=
      tellEach_drained_error_iff.1 h
    · exact .checking hl ht here gone (stops_checkOne.1 stopped)
    · exact .afterChecking hl ht gone unworded
  replace hc := run_tellChecking.1 hc
  obtain ⟨before, p, after, n, es, rfl, ran, ended, stopped⟩ | ⟨n, es, ran, unworded⟩ :=
    tellBodies_drained_error_iff.1 h
  · exact .running hl ht hc well ran ended (stops_runOne.1 stopped)
  · exact .afterRunning hl ht hc well ran unworded

theorem Escapes.stages_error (hm : m.quiet = m) (h : Escapes a module m s) :
    ((stages a module).run m).1 = .error s := by
  rw [stages_error_iff_told hm]
  cases h with
  | loading here gone escape =>
    exact .inl (tellEach_drained_error_iff.2
      (.inl ⟨_, _, _, _, _, _, here, gone, stops_bindOne.2 escape⟩))
  | afterLoading gone unworded =>
    exact .inl (tellEach_drained_error_iff.2 (.inr ⟨_, _, _, gone, unworded⟩))
  | taking hl here gone escape =>
    refine .inr ⟨_, _, _, run_tellLoading.2 hl, .inl (tellEach_drained_error_iff.2 (.inl ?_))⟩
    exact ⟨_, _, _, _, _, _, here, gone, stops_useOne.2 escape⟩
  | afterTaking hl gone unworded =>
    refine .inr ⟨_, _, _, run_tellLoading.2 hl, .inl (tellEach_drained_error_iff.2 (.inr ?_))⟩
    exact ⟨_, _, _, gone, unworded⟩
  | checking hl ht here gone escape =>
    refine .inr ⟨_, _, _, run_tellLoading.2 hl, .inr ⟨_, _, _, run_tellTaking.2 ht, .inl ?_⟩⟩
    exact tellEach_drained_error_iff.2
      (.inl ⟨_, _, _, _, _, _, here, gone, stops_checkOne.2 escape⟩)
  | afterChecking hl ht gone unworded =>
    refine .inr ⟨_, _, _, run_tellLoading.2 hl, .inr ⟨_, _, _, run_tellTaking.2 ht, .inl ?_⟩⟩
    exact tellEach_drained_error_iff.2 (.inr ⟨_, _, _, gone, unworded⟩)
  | running hl ht hc well ran ended escape =>
    refine .inr ⟨_, _, _, run_tellLoading.2 hl, .inr ⟨_, _, _, run_tellTaking.2 ht,
      .inr ⟨_, _, _, run_tellChecking.2 hc, well, ?_⟩⟩⟩
    exact tellBodies_drained_error_iff.2
      (.inl ⟨_, _, _, _, _, rfl, ran, ended, stops_runOne.2 escape⟩)
  | afterRunning hl ht hc well ran unworded =>
    refine .inr ⟨_, _, _, run_tellLoading.2 hl, .inr ⟨_, _, _, run_tellTaking.2 ht,
      .inr ⟨_, _, _, run_tellChecking.2 hc, well, ?_⟩⟩⟩
    exact tellBodies_drained_error_iff.2 (.inr ⟨_, _, ran, unworded⟩)

theorem stages_error_iff (hm : m.quiet = m) :
    ((stages a module).run m).1 = .error s ↔ Escapes a module m s :=
  ⟨escapes_of_stages hm, Escapes.stages_error hm⟩

end stages

/-- Handing warnings on ends early at one that is refused, once those before it were handed on. -/
theorem stops_handOn {ws : List Issued} {m : Machine} {s : Stop} :
    (handOn ws).Stops m s ↔ ∃ before w after n, ws = before ++ w :: after ∧ Handed before m n ∧
      Service.Refused Interpreter.top w n s := by
  constructor
  · intro h
    induction ws generalizing m with
    | nil => exact absurd h (Returns.pure ()).not_stops
    | cons w rest ih =>
      obtain refused | ⟨_, o, first, h⟩ := stops_bind.1 h
      · exact ⟨[], w, rest, m, rfl, .nil m, Service.stops_again.1 refused⟩
      · obtain ⟨text, _, asked, filtered⟩ := Service.of_run_again first
        obtain ⟨before, x, after, n, rfl, handed, refused⟩ := ih h
        exact ⟨w :: before, x, after, n, rfl, .cons asked filtered handed, refused⟩
  · rintro ⟨before, w, after, n, rfl, handed, refused⟩
    induction handed with
    | nil m => exact stops_bind.2 (.inl (Service.stops_again.2 refused))
    | cons asked filtered later ih =>
      exact (stops_bind_ok (Service.run_again asked filtered)).2 (ih refused)

/-- Ways in which an emission ends early: something escapes from its stages, or a warning is refused
when it is handed on. -/
inductive Ends (a : Assembly) (b : Builder) (m : Machine) (s : Stop) : Prop
  | stages (escapes : Escapes a b.module (start a b m) s)
  | handing {before after : List Issued} {w : Issued} {n : Machine}
      (finished : ∀ s, ¬Escapes a b.module (start a b m) s)
      (here : foreignOf (ownFiles a) (course a b m).events = before ++ w :: after)
      (handed : Handed before (m.resume (course a b m).left) n)
      (refused : Service.Refused Interpreter.top w n s)

theorem stops_emit {a : Assembly} {b : Builder} {m : Machine} {s : Stop} :
    (emit a b).Stops m s ↔ Ends a b m s := by
  obtain ⟨o, labelled, started, resumed⟩ := run_label a b m
  have captured : (capturing (Emission.stages a b.module)).run o =
      (((Emission.stages a b.module).run (start a b m)).1,
        m.resume ((Emission.stages a b.module).run (start a b m)).2.quiet) := by
    rw [← started, ← resumed]
    rfl
  have escaping (s : Stop) : ((Emission.stages a b.module).run (start a b m)).1 = .error s ↔
      Escapes a b.module (start a b m) s := stages_error_iff rfl
  rw [emit, stops_bind_ok labelled]
  rcases hs : (Emission.stages a b.module).run (start a b m) with ⟨s' | p, left⟩ <;>
    rw [hs] at captured escaping
  · rw [stops_bind, Stops, captured]
    constructor
    · rintro (⟨⟨⟩⟩ | ⟨_, _, ⟨⟩, -⟩)
      exact .stages ((escaping s).1 rfl)
    · rintro (escapes | ⟨finished, -, -, -⟩)
      · exact .inl ((escaping s).2 escapes)
      · exact absurd ((escaping s').1 rfl) (finished s')
  · have finished (s : Stop) : ¬Escapes a b.module (start a b m) s := fun escapes => by
      cases (escaping s).2 escapes
    obtain ⟨-, rfl, quiet, rfl⟩ := of_run_stages rfl hs
    rw [quiet] at captured
    rw [stops_bind_ok captured]
    refine (Returns.stops_bind_iff fun _ => ?_).trans (stops_handOn.trans ?_)
    · exact Returns.bind (fun n => ⟨_, n, run_get n⟩) fun _ => .pure _
    · constructor
      · rintro ⟨before, w, after, n, here, handed, refused⟩
        exact .handing finished here handed refused
      · rintro (escapes | ⟨-, here, handed, refused⟩)
        · exact absurd escapes (finished s)
        · exact ⟨_, _, _, _, here, handed, refused⟩

end Stencil.Emission
