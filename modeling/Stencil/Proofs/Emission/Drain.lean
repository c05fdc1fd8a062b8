import Mathlib.Data.List.Basic
import Stencil.Proofs.Emission.Account

/-!
Warnings at the end of a stage. Those about the unit are put into words, in the order in which they
were issued, and what is issued meanwhile comes after them; all others are set aside. The account of a
stage goes on with that of its drain, which begins and ends no item (`Tells.run_drained`).
-/

namespace Stencil.Emission

open Script Run

section account

variable {α : Type}

def Told.stop (s : Stop) : Told α := ⟨fun m => (.error s, m, [])⟩

def Told.heard (t : Told α) : Told (α × List Issued) where
  run m := ((t.run m).1.map (·, warnings (t.run m).2.2), (t.run m).2)

/-- Puts a warning into words; what that issues on a quiet machine happens after it has begun. -/
def tellWording (w : Issued) : Told Unit where
  run m := (((wording w).run m).1.map fun _ => (), ((wording w).run m).2.quiet,
    .worded ⟨w, m⟩ :: ((wording w).run m).2.issued.map .warned)

def tellWordings : List Issued → Told Unit
  | [] => return ()
  | w :: rest => do
    tellWording w
    tellWordings rest

def tellDrain (own : List String) : Nat → List Issued → Told Unit
  | 0, _ => .stop .exhausted
  | _ + 1, [] => return ()
  | fuel + 1, w :: ws => do
    let (_, later) ← (tellWordings ((w :: ws).filter (isOwn own))).heard
    tellDrain own fuel later

def Told.drained (own : List String) (t : Told α) : Told α := do
  let (a, ws) ← t.heard
  tellDrain own stepLimit ws
  return a

theorem Told.of_run_heard {t : Told α} {m n : Machine} {r : α × List Issued} {es : List Event}
    (h : t.heard.run m = (.ok r, n, es)) : t.run m = (.ok r.1, n, es) ∧ r.2 = warnings es := by
  rcases ht : t.run m with ⟨s | a, o, fs⟩ <;> simp only [heard, ht] at h
  · cases h
  · cases h
    exact ⟨rfl, rfl⟩

theorem Told.run_heard {t : Told α} {m n : Machine} {a : α} {es : List Event}
    (h : t.run m = (.ok a, n, es)) : t.heard.run m = (.ok (a, warnings es), n, es) := by
  simp only [heard, h, Except.map]

theorem Told.run_heard_error {t : Told α} {m n : Machine} {s : Stop} {es : List Event}
    (h : t.run m = (.error s, n, es)) : t.heard.run m = (.error s, n, es) := by
  simp only [heard, h, Except.map]

end account

inductive Voiced : List Issued → Machine → Machine → List Event → Prop
  | nil (m : Machine) : Voiced [] m m []
  | cons {w : Issued} {rest : List Issued} {m n o : Machine} {text : String} {es : List Event}
      (h : (wording w).run m = (.ok text, n)) (later : Voiced rest n.quiet o es) :
      Voiced (w :: rest) m o (.worded ⟨w, m⟩ :: n.issued.map .warned ++ es)

/-- Warnings that were drained from a machine: those about the unit were put into words, and so were
those that were issued meanwhile. -/
inductive Drained (own : List String) : Nat → List Issued → Machine → Machine → List Event → Prop
  | nil (fuel : Nat) (m : Machine) : Drained own (fuel + 1) [] m m []
  | more {fuel : Nat} {w : Issued} {ws : List Issued} {m n o : Machine} {es later : List Event}
      (h : Voiced ((w :: ws).filter (isOwn own)) m n es)
      (rest : Drained own fuel (warnings es) n o later) :
      Drained own (fuel + 1) (w :: ws) m o (es ++ later)

structure Aside (es : List Event) : Prop where
  begun : begun es = []
  trials : trials es = []

namespace Aside

variable {es later : List Event}

theorem faults (h : Aside es) : faults es = [] := by
  rw [faults_eq, h.trials]
  rfl

theorem append (h : Aside es) (h' : Aside later) : Aside (es ++ later) :=
  ⟨by rw [begun_append, h.begun, h'.begun]; rfl, by rw [trials_append, h.trials, h'.trials]; rfl⟩

end Aside

theorem found_eq_of_trials {es : List Event} (h : trials es = []) :
    found es = (wordings es).filterMap Wording.diagnostic? := by
  rw [wordings, List.filterMap_filterMap, found]
  refine List.filterMap_congr fun e he => ?_
  cases e with
  | ended t => cases List.filterMap_eq_nil_iff.1 h _ he
  | _ => rfl

theorem of_run_tellWording {w : Issued} {m n : Machine} {es : List Event}
    (h : (tellWording w).run m = (.ok (), n, es)) :
    ∃ text o, (wording w).run m = (.ok text, o) ∧ n = o.quiet ∧
      es = .worded ⟨w, m⟩ :: o.issued.map .warned := by
  rcases hw : (wording w).run m with ⟨s | text, o⟩ <;> simp only [tellWording, hw] at h <;> cases h
  exact ⟨text, o, rfl, rfl, rfl⟩

theorem run_tellWording {w : Issued} {m o : Machine} {text : String}
    (h : (wording w).run m = (.ok text, o)) :
    (tellWording w).run m = (.ok (), o.quiet, .worded ⟨w, m⟩ :: o.issued.map .warned) := by
  simp only [tellWording, h, Except.map]

namespace Voiced

variable {ws : List Issued} {m n : Machine} {es : List Event}

theorem of_run (h : (tellWordings ws).run m = (.ok (), n, es)) : Voiced ws m n es := by
  induction ws generalizing m es with
  | nil =>
    cases h
    exact .nil _
  | cons w rest ih =>
    obtain ⟨_, o, before, after, first, next, rfl⟩ := Told.of_run_bind h
    obtain ⟨text, o, ran, rfl, rfl⟩ := of_run_tellWording first
    exact .cons ran (ih next)

theorem run (h : Voiced ws m n es) : (tellWordings ws).run m = (.ok (), n, es) := by
  induction h with
  | nil m => rfl
  | cons h later ih => rw [tellWordings, Told.run_bind_ok (run_tellWording h), ih]

theorem aside (h : Voiced ws m n es) : Aside es := by
  induction h with
  | nil m => exact ⟨rfl, rfl⟩
  | cons h later ih => exact Aside.append ⟨begun_warned _, trials_warned _⟩ ih

theorem warnings_eq (h : Voiced ws m n es) : (wordings es).map Wording.warning = ws := by
  induction h with
  | nil m => rfl
  | @cons w rest m n o text es h later ih =>
    change w :: (wordings (n.issued.map .warned ++ es)).map Wording.warning = w :: rest
    rw [wordings_append, wordings_warned, List.nil_append, ih]

theorem texts (h : Voiced ws m n es) : ∀ t ∈ wordings es, ∃ text, t.text? = some text := by
  induction h with
  | nil m => simp [wordings]
  | @cons w rest m n o text es h later ih =>
    change ∀ t ∈ ⟨w, m⟩ :: wordings (n.issued.map .warned ++ es), ∃ text, t.text? = some text
    rw [wordings_append, wordings_warned, List.nil_append, List.forall_mem_cons]
    exact ⟨⟨text, by rw [Wording.text?, h]; rfl⟩, ih⟩

theorem quiet (h : Voiced ws m n es) (hm : m.quiet = m) : n.quiet = n := by
  induction h with
  | nil m => exact hm
  | cons h later ih => exact ih rfl

end Voiced

namespace Drained

variable {own : List String} {fuel : Nat} {ws : List Issued} {m n : Machine} {es : List Event}

theorem of_run (h : (tellDrain own fuel ws).run m = (.ok (), n, es)) :
    Drained own fuel ws m n es := by
  induction fuel generalizing ws m es with
  | zero => cases h
  | succ fuel ih =>
    cases ws with
    | nil =>
      cases h
      exact .nil fuel _
    | cons w ws =>
      obtain ⟨⟨_, later⟩, o, before, after, first, next, rfl⟩ := Told.of_run_bind h
      obtain ⟨voiced, rfl⟩ := Told.of_run_heard first
      exact .more (.of_run voiced) (ih next)

theorem run (h : Drained own fuel ws m n es) :
    (tellDrain own fuel ws).run m = (.ok (), n, es) := by
  induction h with
  | nil fuel m => rfl
  | more h rest ih => rw [tellDrain, Told.run_bind_ok (Told.run_heard h.run), ih]

theorem aside (h : Drained own fuel ws m n es) : Aside es := by
  induction h with
  | nil fuel m => exact ⟨rfl, rfl⟩
  | more h rest ih => exact h.aside.append ih

theorem warnings_eq (h : Drained own fuel ws m n es) :
    (wordings es).map Wording.warning = (ws ++ warnings es).filter (isOwn own) := by
  induction h with
  | nil fuel m => rfl
  | more h rest ih =>
    rw [wordings_append, List.map_append, h.warnings_eq, ih, warnings_append, ← List.filter_append]

theorem texts (h : Drained own fuel ws m n es) : ∀ t ∈ wordings es, ∃ text, t.text? = some text := by
  induction h with
  | nil fuel m => simp [wordings]
  | more h rest ih =>
    rw [wordings_append, List.forall_mem_append]
    exact ⟨h.texts, ih⟩

theorem quiet (h : Drained own fuel ws m n es) (hm : m.quiet = m) : n.quiet = n := by
  induction h with
  | nil fuel m => exact hm
  | more h rest ih => exact ih (h.quiet hm)

end Drained

def foreignOf (own : List String) (es : List Event) : List Issued :=
  (warnings es).filter (!isOwn own ·)

def Progress.account (own : List String) (p : Progress) (es : List Event) : Progress :=
  (p.report (found es)).setAside (foreignOf own es)

@[simp] theorem account_nil (own : List String) (p : Progress) : p.account own [] = p := by
  simp [Progress.account, Progress.setAside, Progress.report, found, foreignOf, warnings]

theorem account_append (own : List String) (p : Progress) (es later : List Event) :
    (p.account own es).account own later = p.account own (es ++ later) := by
  simp [Progress.account, Progress.setAside, Progress.report, foreignOf]

section progress

variable {own : List String}

theorem warnings_worded (t : Wording) (ws : List Issued) :
    warnings (.worded t :: ws.map .warned) = ws := warnings_warned ws

theorem found_worded (t : Wording) (ws : List Issued) :
    found (.worded t :: ws.map .warned) = t.diagnostic?.toList := by
  have said : Event.found? (.worded t) = t.diagnostic? := rfl
  have rest : (ws.map Event.warned).filterMap Event.found? = [] := found_warned ws
  rw [found, List.filterMap_cons, said, rest]
  cases t.diagnostic? <;> rfl

theorem tellWording_told (w : Issued) :
    Tells Prod.mk (tellWording w) (fun p => wording w >>= fun text =>
      Pure.pure (p.report [diagnosticOf w text], ())) where
  run p m := by
    rw [run_bind, (wording w).framed m]
    rcases hw : (wording w).run m.quiet with ⟨s | text, n⟩ <;>
      simp only [tellWording, hw, warnings_worded, found_worded]
    · rfl
    · rw [Wording.diagnostic?, Wording.text?, hw]
      rfl
  onward m := .run (wording w) m

theorem wordEach_told (ws : List Issued) :
    Tells (fun p _ => p) (tellWordings ws) (wordEach ws) := by
  induction ws with
  | nil => exact Tells.pure ()
  | cons w rest ih =>
    have unfolded (p : Progress) : wordEach (w :: rest) p =
        (wording w >>= fun text => Pure.pure (p.report [diagnosticOf w text], ())) >>=
          fun r => wordEach rest r.1 := by
      rw [wordEach, bind_assoc]
      rfl
    rw [funext unfolded]
    exact (tellWording_told w).bind fun _ => ih

theorem run_drain_cons {fuel : Nat} {w : Issued} {ws : List Issued} {o : Machine} (p : Progress)
    (ho : o.quiet = o) :
    (drain own (fuel + 1) p).run (o.issuing (w :: ws)) =
      match (tellWordings ((w :: ws).filter (isOwn own))).run o with
      | (.ok _, n, es) =>
        (drain own fuel ((p.setAside ((w :: ws).filter (!isOwn own ·))).report (found es))).run
          (n.issuing (warnings es))
      | (.error s, n, es) => (.error s, n.issuing (warnings es)) := by
  have told := wordEach_told ((w :: ws).filter (isOwn own))
  have onward := told.onward o
  have ran := told.run (p.setAside ((w :: ws).filter (!isOwn own ·))) o
  -- the warnings are taken off the machine before the first of them is put into words
  have taken : (o.issuing (w :: ws)).quiet = o := ho
  rw [ho] at onward ran
  rw [drain, Capture.run_bind, Capture.run_taken, Machine.issuing_issued, taken]
  dsimp only
  rw [Capture.run_bind, Capture.run_lift, ran]
  rcases ht : (tellWordings ((w :: ws).filter (isOwn own))).run o with ⟨s | _, n, es⟩ <;>
    rw [ht] at onward <;> simp only [Except.map, onward.resume_issuing ho]

theorem Drained.run_drain {fuel : Nat} {ws : List Issued} {o n : Machine} {es : List Event}
    (h : Drained own fuel ws o n es) (ho : o.quiet = o) (p : Progress) :
    (drain own fuel p).run (o.issuing ws) =
      (.ok ((p.report (found es)).setAside ((ws ++ warnings es).filter (!isOwn own ·))), n) := by
  induction h generalizing p with
  | nil fuel m =>
    have kept : (p.report (found [])).setAside [] = p := by
      simp [Progress.setAside, Progress.report, found]
    change (Except.ok p, m.quiet) = (Except.ok ((p.report (found [])).setAside []), m)
    rw [kept, ho]
  | more h rest ih =>
    rw [run_drain_cons p ho, h.run]
    dsimp only
    rw [ih (h.quiet ho)]
    simp only [Progress.setAside, Progress.report, found_append, warnings_append, List.filter_append,
      List.append_assoc]

theorem run_drain_error {fuel : Nat} {ws : List Issued} {o n : Machine} {s : Stop} {es : List Event}
    (h : (tellDrain own fuel ws).run o = (.error s, n, es)) (ho : o.quiet = o) (p : Progress) :
    ∃ rest, (drain own fuel p).run (o.issuing ws) = (.error s, n.issuing rest) := by
  induction fuel generalizing ws o es p with
  | zero =>
    cases h
    exact ⟨ws, rfl⟩
  | succ fuel ih =>
    cases ws with
    | nil => cases h
    | cons w ws =>
      rw [run_drain_cons p ho]
      rw [tellDrain] at h
      rcases ht : (tellWordings ((w :: ws).filter (isOwn own))).run o with ⟨_ | _, n', es'⟩
      · rw [Told.run_bind_error (Told.run_heard_error ht)] at h
        cases h
        exact ⟨_, rfl⟩
      · rw [Told.run_bind_ok (Told.run_heard ht)] at h
        dsimp only at h ⊢
        rcases hd : (tellDrain own fuel (warnings es')).run n' with ⟨s' | _, n'', es''⟩ <;> rw [hd] at h
        · cases h
          exact ih hd ((Voiced.of_run ht).quiet ho) _
        · cases h

end progress

def Stage (own : List String) (P : Machine → List Event → Prop) (n : Machine) (es : List Event) :
    Prop :=
  ∃ o before after, P o before ∧ Drained own stepLimit (warnings before) o n after ∧
    es = before ++ after

section stage

variable {α : Type} {own : List String} {t : Told α} {m n : Machine} {a : α} {es : List Event}
  {P : Machine → List Event → Prop}

theorem Stage.of_run (spec : ∀ o es, t.run m = (.ok a, o, es) → P o es)
    (h : (t.drained own).run m = (.ok a, n, es)) : Stage own P n es := by
  obtain ⟨⟨b, ws⟩, o, before, _, first, next, rfl⟩ := Told.of_run_bind h
  obtain ⟨_, o', after, _, drained, last, rfl⟩ := Told.of_run_bind next
  cases last
  obtain ⟨ran, rfl⟩ := Told.of_run_heard first
  exact ⟨o, before, after, spec o before ran, .of_run drained, by rw [List.append_nil]⟩

theorem Stage.run (spec : ∀ o es, P o es → t.run m = (.ok a, o, es)) (h : Stage own P n es) :
    (t.drained own).run m = (.ok a, n, es) := by
  obtain ⟨o, before, after, gone, drained, rfl⟩ := h
  rw [Told.drained, Told.run_bind_ok (Told.run_heard (spec o before gone)),
    Told.run_bind_ok drained.run, Told.run_pure, List.append_nil]

theorem Told.of_run_drained (h : (t.drained own).run m = (.ok a, n, es)) :
    ∃ o before after, t.run m = (.ok a, o, before) ∧
      Drained own stepLimit (warnings before) o n after ∧ es = before ++ after :=
  Stage.of_run (P := fun o before => t.run m = (.ok a, o, before)) (fun _ _ ran => ran) h

theorem Told.of_run_drained_error {s : Stop} (h : (t.drained own).run m = (.error s, n, es)) :
    t.run m = (.error s, n, es) ∨ ∃ a o before after, t.run m = (.ok a, o, before) ∧
      (tellDrain own stepLimit (warnings before)).run o = (.error s, n, after) ∧
      es = before ++ after := by
  rcases ht : t.run m with ⟨s' | b, o, before⟩
  · rw [drained, run_bind_error (run_heard_error ht)] at h
    cases h
    exact .inl rfl
  · rw [drained, run_bind_ok (run_heard ht)] at h
    rcases hd : (tellDrain own stepLimit (warnings before)).run o with ⟨s' | _, o', after⟩ <;>
      simp only [Bind.bind, hd] at h
    · cases h
      exact .inr ⟨b, o, before, after, rfl, hd, rfl⟩
    · cases h

theorem Stage.gone (h : Stage own P n es) :
    ∃ o before, P o before ∧ trials es = trials before ∧ begun es = begun before ∧
      faults es = faults before := by
  obtain ⟨o, before, after, gone, drained, rfl⟩ := h
  refine ⟨o, before, gone, ?_, ?_, ?_⟩
  · rw [trials_append, drained.aside.trials, List.append_nil]
  · rw [begun_append, drained.aside.begun, List.append_nil]
  · rw [faults_append, drained.aside.faults, List.append_nil]

variable {β γ : Type} {pack : Progress → α → β} {code : Progress → Run β} {reached : β → Progress}
  {p : Progress} {next : β → Progress → Capture γ}

theorem Tells.run_lift (h : Tells pack t code) (hm : m.quiet = m) (next : β → Capture γ) :
    Capture.run (liftM (code p) >>= next) m =
      match (t.run m).1 with
      | .ok a => (next (pack (p.report (found (t.run m).2.2)) a)).run
          ((t.run m).2.1.issuing (warnings (t.run m).2.2))
      | .error s => (.error s, (t.run m).2.1.issuing (warnings (t.run m).2.2)) := by
  have onward := h.onward m
  have ran := h.run p m
  rw [hm] at onward ran
  rw [Capture.run_bind, Capture.run_lift, ran, onward.resume_issuing hm]
  cases (t.run m).1 <;> rfl

theorem Tells.run_drained_ok (h : Tells pack t code) (hr : ∀ p a, reached (pack p a) = p)
    (hm : m.quiet = m) (ht : (t.drained own).run m = (.ok a, n, es)) (p : Progress)
    (next : β → Progress → Capture γ) : n.quiet = n ∧ ∃ q, Capture.run
        (liftM (code p) >>= fun b => drain own stepLimit (reached b) >>= next b) m =
      (next (pack q a) (p.account own es)).run n := by
  obtain ⟨o, before, after, ran, drained, rfl⟩ := Told.of_run_drained ht
  have onward := h.onward m
  rw [hm, ran] at onward
  refine ⟨drained.quiet onward.quiet_eq, p.report (found before), ?_⟩
  rw [h.run_lift hm, ran]
  dsimp only
  rw [Capture.run_bind, hr, drained.run_drain onward.quiet_eq]
  simp only [Progress.account, foreignOf, report_report, found_append, warnings_append]

theorem Tells.run_drained_error (h : Tells pack t code) (hr : ∀ p a, reached (pack p a) = p)
    (hm : m.quiet = m) {s : Stop} (ht : (t.drained own).run m = (.error s, n, es)) (p : Progress)
    (next : β → Progress → Capture γ) :
    ∃ rest, Capture.run
        (liftM (code p) >>= fun b => drain own stepLimit (reached b) >>= next b) m =
      (.error s, n.issuing rest) := by
  rw [h.run_lift hm]
  obtain ran | ⟨a, o, before, after, ran, drained, rfl⟩ := Told.of_run_drained_error ht
  · rw [ran]
    exact ⟨_, rfl⟩
  · have onward := h.onward m
    rw [hm, ran] at onward
    obtain ⟨rest, stopped⟩ := run_drain_error drained onward.quiet_eq (p.report (found before))
    rw [ran]
    dsimp only
    rw [Capture.run_bind, hr, stopped]
    exact ⟨rest, rfl⟩

theorem Tells.of_run_drained (h : Tells pack t code) (hr : ∀ p a, reached (pack p a) = p)
    (hm : m.quiet = m) {o : Machine} {c : γ}
    (hc : Capture.run (liftM (code p) >>= fun b => drain own stepLimit (reached b) >>= next b) m =
      (.ok c, o)) :
    ∃ a n es q, (t.drained own).run m = (.ok a, n, es) ∧ n.quiet = n ∧
      (next (pack q a) (p.account own es)).run n = (.ok c, o) := by
  rcases ht : (t.drained own).run m with ⟨s | a, n, es⟩
  · obtain ⟨rest, stopped⟩ := h.run_drained_error hr hm ht p next
    rw [stopped] at hc
    cases hc
  · obtain ⟨quiet, q, ran⟩ := h.run_drained_ok hr hm ht p next
    exact ⟨a, n, es, q, rfl, quiet, ran ▸ hc⟩

end stage

end Stencil.Emission
