import Stencil.Proofs.Emission.Return
import Stencil.Proofs.Emission.Running
import Stencil.Proofs.Script.Asking

/-!
Emissions that leave modules alone. Of all that an emission does, it writes to the module that it
emits into only. What else is written is written by code that is not its own: that of the files and
sources that it runs, of modules that are asked for names they do not have, and of errors that say
how they are shown. If all of that leaves the modules of an earlier machine alone, so does the
emission, however it ends (`spares_emit`).
-/

namespace Stencil

open Script Run

theorem Script.Intact.answers {m n : Machine} {module : Nat} {name : String} (h : Intact m n)
    (answers : m.answers module name = true) : n.answers module name = true := by
  unfold Machine.answers at answers ⊢
  split at answers
  · next attrs found => rwa [h.attributes module attrs found]
  · cases answers

/-- A module whose public names no code has a part in: it has no function that is asked for names, and
if it lists its names, they are plain data. -/
def Script.Machine.isOpen (m : Machine) (module : Nat) : Bool :=
  match m.heap[module]? with
  | some (.module attrs) =>
    !attrs.has "__getattr__" && match attrs.get? "__all__" with
      | none | some .none | some (.tuple _) => true
      | some (.object ref) =>
        match m.heap[ref]? with
        | some (.list _) => true
        | _ => false
      | _ => false
  | _ => false

namespace Dependency

variable {before m n : Machine} {module : Nat}

theorem spares_nameOf (h : m.answers module "__name__" = true) : Spares before (nameOf module) m := by
  refine (spares_getMember Interpreter.top h).bind fun v o _ => ?_
  split
  · exact .of_still (still_pure _)
  · exact sparing_raiseKind "AttributeError" _
      (fun kind => "'" ++ kind ++ "' object has no attribute 'partition'") before o

theorem spares_binding (named : Spares before (nameOf module) m) :
    Spares before (binding module) m := by
  refine named.bind fun name o _ => ?_
  refine Spares.bind (.of_still (still_registered? name)) fun found o _ => ?_
  dsimp only
  split
  · split
    · refine Spares.bind (.of_still (still_registered? _)) fun top o _ => ?_
      cases top with
      | some v => exact ((sparing_moduleOf v).bind fun _ => .pure _) before o
      | none => exact sparing_raiseOf _ _ before o
    · exact .of_still (still_pure _)
  · exact .of_still (still_pure _)

theorem sparing_attributeName (v : Value) : Sparing (Basic.attributeName v) := by
  unfold Basic.attributeName
  split
  · exact .pure _
  · exact sparing_raiseKind "TypeError" _ fun kind => "attribute name must be string, not '" ++ kind ++ "'"

theorem spares_publicValues {attrs : Bindings Value} (names : List Value)
    (found : m.heap[module]? = some (.module attrs)) (plain : attrs.has "__getattr__" = false) :
    Spares before (publicValues (.object module) names) m := by
  have answers {n : Machine} (found : n.heap[module]? = some (.module attrs)) (name : String) :
      n.answers module name = true := by
    rw [Machine.answers, found]
    simp [plain]
  induction names generalizing m with
  | nil => exact .of_still (still_pure _)
  | cons name rest ih =>
    refine (sparing_attributeName name before m).bind fun n o ran => ?_
    replace found := (sparing_attributeName name m m).attributes ran found
    refine (spares_lookMember _ (answers found n)).bind fun there o ran => ?_
    replace found := (spares_lookMember _ (answers found n)).attributes ran found
    cases there with
    | none => exact ih found
    | some v =>
      refine (spares_getMember _ (answers found n)).bind fun v o ran => ?_
      replace found := (spares_getMember _ (answers found n)).attributes ran found
      exact (ih found).bind fun others o _ => .of_still (still_pure _)

theorem spares_publicNames (h : m.isOpen module = true) : Spares before (publicNames module) m := by
  unfold Machine.isOpen at h
  split at h
  · next attrs found =>
    rw [Bool.and_eq_true, Bool.not_eq_true'] at h
    obtain ⟨plain, listed⟩ := h
    have asked : (lookMember Interpreter.top (.object module) "__all__").run m =
        (.ok (attrs.get? "__all__"), m) := by
      have own : (member? Interpreter.top (.object module) "__all__").run m =
          (.ok (attrs.get? "__all__"), m) := by
        rw [run_member?_module _ found (by decide)]
        cases attrs.get? "__all__" with
        | some v => rfl
        | none =>
          have silent : attrs.get? "__getattr__" = none := by simpa [Bindings.has] using plain
          rw [silent]
          rfl
      rw [lookMember, handling, run_tryCatch, own]
    have offers : (offered module).Still m := by
      rw [offered, Still, run_bind, asked]
      cases hl : attrs.get? "__all__" with
      | none => exact still_get.bind fun _ => still_pure _
      | some v =>
        rw [hl] at listed
        cases v with
        | none => exact still_get.bind fun _ => still_pure _
        | tuple items => exact still_pure items
        | object ref =>
          dsimp only at listed ⊢
          split at listed
          · next items there => exact still_itemsOf _ there
          · cases listed
        | _ => cases listed
    refine Spares.bind (.of_still offers) fun names o ran => ?_
    obtain ⟨result, same⟩ := offers.run
    rw [same] at ran
    cases ran
    exact (spares_publicValues names found plain).bind fun _ o _ => .of_still (still_pure _)
  · cases h

end Dependency

theorem Source.sparing_read (t : Source) : Sparing t.read := by
  refine (Sparing.of_still fun _ => still_get).bind fun m => ?_
  split
  · exact .pure _
  · have noted : Sparing (update fun m : Machine => { m with read := t.id :: m.read }) :=
      fun _ _ intact => intact.of_eq rfl rfl
    exact noted.bind fun _ => ((Program.sparing_issueAll _ _ _).bind fun _ => .pure _).bind fun _ => .pure _

namespace Emission

variable {before m : Machine} {module error : Nat} {loaded : List Nat}

theorem spares_describe (h : m.isPlainError error = true) : Spares before (describe error) m := by
  have asked := still_kindOf (m := m) (.object error)
  obtain ⟨kind, same⟩ := asked.run
  refine (Spares.of_still asked).bind fun kind o ran => ?_
  rw [same] at ran
  cases ran
  exact (spares_laidOut _ h).bind fun _ _ _ => .of_still (still_pure _)

section reporting

variable {α β : Type} {code : Run α}

/-- The errors of code that are reported are put into words by code that leaves modules alone. -/
def Worded (before : Machine) (code : Run α) (m : Machine) : Prop :=
  ∀ error o, Caught isReported code m error o → o.isPlainError error = false →
    Spares before (describe error) o

theorem Worded.spares {o : Machine} (h : Worded before code m)
    (caught : Caught isReported code m error o) : Spares before (describe error) o := by
  cases plain : o.isPlainError error with
  | true => exact spares_describe plain
  | false => exact h error o caught plain

theorem spares_reporting_bind {f : Except Nat α → Run β} (h : Spares before code m)
    (failed : ∀ error o, Caught isReported code m error o → Spares before (f (.error error)) o)
    (well : ∀ a o, code.run m = (.ok a, o) → Spares before (f (.ok a)) o) :
    Spares before (reporting code >>= f) m := by
  rw [reporting_eq]
  refine (h.guarding asks_isReported).bind fun r o ran => ?_
  obtain ⟨a, ran', rfl⟩ | ⟨error, caught, rfl⟩ := asks_isReported.run_guarding ran
  · exact well a o ran'
  · exact failed error o caught

end reporting

/-- An item that an emission comes to: the modules that are loaded by then, and the machine that it
finds. -/
structure Place where
  item : Item
  loaded : List Nat
  machine : Machine

namespace Place

/-- The code that is about to run at a place, if there is any: that of a file, or of a source. -/
def launch? (module : Nat) : Place → Option Launch
  | ⟨.dependency d, _, m⟩ => d.launch? m
  | ⟨.body p, _, m⟩ => p.launch? module m
  | _ => none

/-- What else has a say at a place leaves the modules of an earlier machine alone: the functions of
modules that are asked for names they do not have, the lists of names that are more than data, and
errors that are put into words. -/
def Asks (before : Machine) (module : Nat) : Place → Prop
  | ⟨.dependency d, _, m⟩ =>
    Worded before d.load m ∧ ∀ l o, d.load.run m = (.ok l, o) → o.answers l "__name__" = false →
      Spares before (Dependency.nameOf l) o
  | ⟨.usage name, loaded, m⟩ =>
    ((∃ l ∈ loaded, m.answers l "__name__" = false) → Spares before (findNamespace name loaded) m) ∧
      ∀ found o, (findNamespace name loaded).run m = (.ok (some found), o) →
        o.isOpen found = false → Spares before (Dependency.publicNames found) o
  | ⟨.source _, _, _⟩ => True
  | ⟨.body p, _, m⟩ => Worded before (p.run module) m

def isPlain (module : Nat) : Place → Bool
  | ⟨.dependency d, _, m⟩ =>
    match d.load.run m with
    | (.ok l, o) => o.answers l "__name__"
    | (.error (.raised error _), o) => o.isPlainError error
    | (.error .exhausted, _) => true
  | ⟨.usage name, loaded, m⟩ =>
    loaded.all (m.answers · "__name__") && match (findNamespace name loaded).run m with
      | (.ok (some found), o) => o.isOpen found
      | _ => true
  | ⟨.source _, _, _⟩ => true
  | ⟨.body p, _, m⟩ =>
    match (p.run module).run m with
    | (.error (.raised error _), o) => o.isPlainError error
    | _ => true

theorem asks_of_isPlain {p : Place} (h : p.isPlain module = true) : p.Asks before module := by
  obtain ⟨item, loaded, m⟩ := p
  cases item with
  | dependency d =>
    rw [isPlain] at h
    refine ⟨?_, fun l o ran silent => ?_⟩
    · rintro error o ⟨placed, raised, -⟩ wild
      rw [raised] at h
      exact Bool.noConfusion (h.symm.trans wild)
    · rw [ran] at h
      exact Bool.noConfusion (h.symm.trans silent)
  | usage name =>
    rw [isPlain, Bool.and_eq_true, List.all_eq_true] at h
    obtain ⟨answers, listed⟩ := h
    refine ⟨fun ⟨l, hl, silent⟩ => ?_, fun found o ran closed => ?_⟩
    · exact Bool.noConfusion ((answers l hl).symm.trans silent)
    · rw [ran] at listed
      exact Bool.noConfusion (listed.symm.trans closed)
  | source t => exact trivial
  | body p =>
    rw [isPlain] at h
    rintro error o ⟨placed, raised, -⟩ wild
    rw [raised] at h
    exact Bool.noConfusion (h.symm.trans wild)

end Place

section step

variable (fresh : Fresh before module)

include fresh

theorem spares_bindOne {d : Dependency} (runs : ∀ l, d.launch? m = some l → l.Spares before)
    (asks : Place.Asks before module ⟨.dependency d, loaded, m⟩) :
    Spares before (bindOne module d) m := by
  obtain ⟨worded, named⟩ := asks
  refine spares_reporting_bind (Dependency.spares_load runs) (fun error o caught => ?_) fun l o ran => ?_
  · exact (worded.spares caught).bind fun _ _ _ => .of_still (still_pure _)
  · have asked : Spares before (Dependency.nameOf l) o := by
      cases answers : o.answers l "__name__" with
      | true => exact Dependency.spares_nameOf answers
      | false => exact named l o ran answers
    refine (Dependency.spares_binding asked).bind fun bound o _ => ?_
    exact (spares_putAttribute fresh _ _).bind fun _ _ _ => .of_still (still_pure _)

theorem spares_takeIn (entries : List (String × Value)) : Spares before (takeIn module entries) m := by
  induction entries generalizing m with
  | nil => exact .of_still (still_pure _)
  | cons entry rest ih => exact (spares_putAttribute fresh _ _).bind fun _ _ _ => ih

omit fresh

theorem spares_named? {name : String} (answer : ∀ l ∈ loaded, m.answers l "__name__" = true) :
    Spares before (named? name loaded) m := by
  induction loaded generalizing m with
  | nil => exact .of_still (still_pure _)
  | cons l rest ih =>
    rw [List.forall_mem_cons] at answer
    refine (spares_getMember _ answer.1).bind fun v o ran => ?_
    have kept := (spares_getMember _ answer.1).intact ran
    have later : Spares before (named? name rest) o := ih fun l hl => kept.answers (answer.2 l hl)
    split
    · split
      · exact .of_still (still_pure _)
      · exact later
    · exact later

theorem spares_sharesTop {top : String} (answer : ∀ l ∈ loaded, m.answers l "__name__" = true) :
    Spares before (sharesTop top loaded) m := by
  induction loaded generalizing m with
  | nil => exact .of_still (still_pure _)
  | cons l rest ih =>
    rw [List.forall_mem_cons] at answer
    refine (Dependency.spares_nameOf answer.1).bind fun name o ran => ?_
    have kept := (Dependency.spares_nameOf answer.1).intact ran
    split
    · exact .of_still (still_pure _)
    · exact ih fun l hl => kept.answers (answer.2 l hl)

theorem spares_findNamespace {name : String}
    (answer : ∀ l ∈ loaded, m.answers l "__name__" = true) :
    Spares before (findNamespace name loaded) m := by
  rw [findNamespace_eq]
  refine (spares_named? answer).bind fun found o ran => ?_
  have kept := (spares_named? answer).intact ran
  cases found with
  | some l => exact .of_still (still_pure _)
  | none =>
    refine (spares_sharesTop fun l hl => kept.answers (answer l hl)).bind fun related o _ => ?_
    cases related with
    | true => exact (Dependency.sparing_importNamed name).guarding (asks_isA _) before o
    | false => exact .of_still (still_pure _)

include fresh

theorem spares_useOne {name : String} (asks : Place.Asks before module ⟨.usage name, loaded, m⟩) :
    Spares before (useOne module loaded name) m := by
  obtain ⟨sought, listed⟩ := asks
  have finds : Spares before (findNamespace name loaded) m := by
    by_cases silent : ∃ l ∈ loaded, m.answers l "__name__" = false
    · exact sought silent
    · exact spares_findNamespace (by simpa using silent)
  refine finds.bind fun found o ran => ?_
  cases found with
  | none => exact .of_still (still_pure _)
  | some found =>
    have lists : Spares before (Dependency.publicNames found) o := by
      cases hf : o.isOpen found with
      | true => exact Dependency.spares_publicNames hf
      | false => exact listed found o ran hf
    exact lists.bind fun _ _ _ => (spares_takeIn fresh _).bind fun _ _ _ => .of_still (still_pure _)

theorem spares_runOne {sources : List Source} {p : Program}
    (runs : ∀ l, p.launch? module m = some l → l.Spares before)
    (worded : Place.Asks before module ⟨.body p, loaded, m⟩) :
    Spares before (runOne sources module p) m := by
  refine spares_reporting_bind (p.spares_run fresh runs) (fun error o caught => ?_)
    fun _ o _ => .of_still (still_pure _)
  obtain ⟨trace, traced⟩ := run_traceOf error o
  refine Spares.bind (.of_still (by rw [Still, traced])) fun trace n ran => ?_
  rw [traced] at ran
  cases ran
  exact (worded.spares caught).bind fun _ _ _ => .of_still (still_pure _)

omit fresh

theorem sparing_checkOne (level : Int) (t : Source) : Sparing (checkOne level t) := by
  refine (Source.sparing_read t).bind fun _ => ?_
  split
  · exact .pure _
  · refine (Program.sparing_ofTree _ _ _).bind fun made => ?_
    cases made <;> exact .pure _

end step

section loop

variable {ι α : Type} {item : ι → Item}

def visits (step : ι → Run (Except Diagnostic α)) : List ι → Machine → List (ι × Machine)
  | [], _ => []
  | i :: rest, m => (i, m) :: match (step i).run m with
    | (.ok _, n) => visits step rest n.quiet
    | (.error _, _) => []

def visitsUntil (step : Program → Run (Except Diagnostic Unit)) :
    List Program → Machine → List (Program × Machine)
  | [], _ => []
  | p :: rest, m => (p, m) :: match (step p).run m with
    | (.ok (.ok _), n) => visitsUntil step rest n.quiet
    | _ => []

theorem intact_tell {i : Item} {step : Run (Except Diagnostic α)} (h : Spares before step m)
    (intact : Intact before m) : Intact before ((tell i step).run m).2.1 := by
  have kept := h intact
  rcases hs : step.run m with ⟨s | r, o⟩ <;> rw [hs] at kept <;> simp only [tell, hs] <;>
    exact kept.quiet

theorem Told.intact_bind {β : Type} {t : Told α} {f : α → Told β} (h : Intact before (t.run m).2.1)
    (later : ∀ a n es, t.run m = (.ok a, n, es) → Intact before n → Intact before ((f a).run n).2.1) :
    Intact before ((t >>= f).run m).2.1 := by
  rcases ht : t.run m with ⟨s | a, n, es⟩ <;> rw [ht] at h
  · rw [Told.run_bind_error ht]
    exact h
  · rw [Told.run_bind_ok ht]
    exact later a n es ht h

theorem intact_tellEach {step : ι → Run (Except Diagnostic α)} {is : List ι}
    (h : ∀ v ∈ visits step is m, Spares before (step v.1) v.2) (intact : Intact before m) :
    Intact before ((tellEach item step is).run m).2.1 := by
  induction is generalizing m with
  | nil => exact intact
  | cons i rest ih =>
    rw [visits, List.forall_mem_cons] at h
    refine Told.intact_bind (intact_tell h.1 intact) fun r n es told kept => ?_
    obtain ⟨o, ran, rfl, -⟩ := of_run_tell told
    have later := ih (by simpa only [ran] using h.2) kept
    cases r with
    | error d => exact later
    | ok a => exact Told.intact_bind later fun _ _ _ _ kept => kept

theorem intact_tellBodies {step : Program → Run (Except Diagnostic Unit)} {ps : List Program}
    (h : ∀ v ∈ visitsUntil step ps m, Spares before (step v.1) v.2) (intact : Intact before m) :
    Intact before ((tellBodies step ps).run m).2.1 := by
  induction ps generalizing m with
  | nil => exact intact
  | cons p rest ih =>
    rw [visitsUntil, List.forall_mem_cons] at h
    refine Told.intact_bind (intact_tell h.1 intact) fun r n es told kept => ?_
    obtain ⟨o, ran, rfl, -⟩ := of_run_tell told
    cases r with
    | error d => exact kept
    | ok _ => exact ih (by simpa only [ran] using h.2) kept

end loop

/-- A warning that has nothing to say itself: a mere text, or an error of the library about plain
data. -/
def Wording.isMute (t : Wording) : Bool :=
  match t.warning.message with
  | .text _ => true
  | .object error => t.start.isPlainError error
  | _ => false

theorem Wording.spares {t : Wording} (h : t.isMute = true) :
    Spares before (wording t.warning) t.start := by
  obtain ⟨name, named⟩ := run_nameOf t.warning.kind t.start
  refine Spares.bind (.of_still (by rw [Still, named])) fun category o ran => ?_
  rw [named] at ran
  cases ran
  refine Spares.bind ?_ fun _ _ _ => .of_still (still_pure _)
  unfold isMute at h
  split at h
  · next s message =>
    rw [message]
    exact .of_still rfl
  · next error message =>
    rw [message]
    exact spares_laidOut _ h
  · cases h

theorem Wording.spares_plainStep {t : Wording} (h : t.isMute = true) :
    Spares before (plainStep Interpreter.top t.warning.message) t.start := by
  unfold isMute at h
  split at h
  · next s message =>
    rw [message]
    exact .of_still rfl
  · next error message =>
    rw [message]
    exact Run.spares_plainStep _ h
  · cases h

section drain

variable {α : Type} {own : List String}

/-- Warnings that are put into words leave modules alone if each does that where it is come to. -/
theorem intact_tellWordings (ws : List Issued)
    (h : ∀ t ∈ wordings ((tellWordings ws).run m).2.2, Spares before (wording t.warning) t.start)
    (intact : Intact before m) : Intact before ((tellWordings ws).run m).2.1 := by
  induction ws generalizing m with
  | nil => exact intact
  | cons w rest ih =>
    rw [tellWordings] at h ⊢
    rcases hw : (wording w).run m with ⟨s | text, o⟩
    · have told : (tellWording w).run m = (.error s, o.quiet, .worded ⟨w, m⟩ :: o.issued.map .warned) := by
        simp only [tellWording, hw, Except.map]
      rw [Told.run_bind_error told] at h ⊢
      have kept := h ⟨w, m⟩ List.mem_cons_self intact
      rw [hw] at kept
      exact kept.quiet
    · rw [Told.run_bind_ok (run_tellWording hw)] at h ⊢
      rw [wordings_append, List.forall_mem_append] at h
      have kept := h.1 ⟨w, m⟩ List.mem_cons_self intact
      rw [hw] at kept
      exact ih h.2 kept.quiet

theorem intact_tellDrain {fuel : Nat} {ws : List Issued}
    (h : ∀ t ∈ wordings ((tellDrain own fuel ws).run m).2.2, Spares before (wording t.warning) t.start)
    (intact : Intact before m) : Intact before ((tellDrain own fuel ws).run m).2.1 := by
  induction fuel generalizing m ws with
  | zero => exact intact
  | succ fuel ih =>
    cases ws with
    | nil => exact intact
    | cons w ws =>
      rw [tellDrain] at h ⊢
      rcases ht : (tellWordings ((w :: ws).filter (isOwn own))).run m with ⟨s | _, n, es⟩
      · rw [Told.run_bind_error (Told.run_heard_error ht)] at h ⊢
        have first := intact_tellWordings ((w :: ws).filter (isOwn own)) (by rw [ht]; exact h) intact
        rwa [ht] at first
      · rw [Told.run_bind_ok (Told.run_heard ht)] at h ⊢
        rw [wordings_append, List.forall_mem_append] at h
        have first := intact_tellWordings ((w :: ws).filter (isOwn own)) (by rw [ht]; exact h.1) intact
        rw [ht] at first
        exact ih h.2 first

theorem Told.intact_drained {t : Told α} (gone : Intact before (t.run m).2.1)
    (h : ∀ s ∈ wordings ((t.drained own).run m).2.2, Spares before (wording s.warning) s.start) :
    Intact before ((t.drained own).run m).2.1 := by
  rw [drained] at h ⊢
  rcases ht : t.run m with ⟨s | a, n, es⟩ <;> rw [ht] at gone
  · rw [run_bind_error (run_heard_error ht)]
    exact gone
  · rw [run_bind_ok (run_heard ht)] at h ⊢
    rw [wordings_append, List.forall_mem_append] at h
    have later : (∀ s ∈ wordings ((tellDrain own stepLimit (warnings es)).run n).2.2,
        Spares before (wording s.warning) s.start) →
          Intact before ((tellDrain own stepLimit (warnings es)).run n).2.1 :=
      fun words => intact_tellDrain words gone
    rcases hd : (tellDrain own stepLimit (warnings es)).run n with ⟨s | _, n', es'⟩ <;>
      rw [hd] at later <;> simp only [Bind.bind, hd] at h ⊢
    · exact later h.2
    · refine later fun t ht => h.2 t ?_
      rw [wordings_append]
      exact List.mem_append_left _ ht

end drain

section stage

variable {α β γ : Type} {pack : Progress → α → β} {t : Told α} {code : Progress → Run β}
  {reached : β → Progress} {own : List String} {p : Progress} {next : β → Progress → Capture γ}

theorem Tells.intact_drained (h : Tells pack t code) (hr : ∀ p a, reached (pack p a) = p)
    (hm : m.quiet = m) (intact : Intact before ((t.drained own).run m).2.1)
    (later : ∀ a o es q, (t.drained own).run m = (.ok a, o, es) → o.quiet = o → Intact before o →
      Intact before ((next (pack q a) (p.account own es)).run o).2) :
    Intact before
      (Capture.run (liftM (code p) >>= fun b => drain own stepLimit (reached b) >>= next b) m).2 := by
  rcases ht : (t.drained own).run m with ⟨s | a, o, es⟩ <;> rw [ht] at intact
  · obtain ⟨rest, stopped⟩ := h.run_drained_error hr hm ht p next
    rw [stopped]
    exact intact.of_eq rfl rfl
  · obtain ⟨quiet, q, ran⟩ := h.run_drained_ok hr hm ht p next
    rw [ran]
    exact later a o es q ht quiet intact

theorem Tells.intact_last (h : Tells pack t code) (reached : β → Progress)
    (hr : ∀ p a, reached (pack p a) = p) (hm : m.quiet = m)
    (intact : Intact before ((t.drained own).run m).2.1) :
    Intact before (Capture.run (liftM (code p) >>= fun b => drain own stepLimit (reached b)) m).2 := by
  rw [lift_bind_drain_eq]
  exact h.intact_drained hr hm intact fun _ _ _ _ _ _ kept => kept

end stage

def places (a : Assembly) (module : Nat) (m : Machine) : List Place :=
  (visits (bindOne module) a.dependencies m).map (fun v => ⟨.dependency v.1, [], v.2⟩) ++
  match (tellLoading a module).run m with
  | (.error _, _, _) => []
  | (.ok loaded, m, loading) =>
    (visits (useOne module loaded) a.options.usings m).map (fun v => ⟨.usage v.1, loaded, v.2⟩) ++
    match (tellTaking a module loaded).run m with
    | (.error _, _, _) => []
    | (.ok _, m, taking) =>
      (visits (checkOne a.options.optimize) a.sources m).map (fun v => ⟨.source v.1, loaded, v.2⟩) ++
      match (tellChecking a).run m with
      | (.error _, _, _) => []
      | (.ok programs, m, checking) =>
        if (faults (loading ++ taking ++ checking)).isEmpty then
          (visitsUntil (runOne a.sources module) programs m).map fun v => ⟨.body v.1, loaded, v.2⟩
        else []

def handings : List Issued → Machine → List Wording
  | [], _ => []
  | w :: rest, m => ⟨w, m⟩ :: match (Service.again Interpreter.top w).run m with
    | (.ok _, n) => handings rest n
    | (.error _, _) => []

def handed (a : Assembly) (b : Builder) (m : Machine) : List Wording :=
  match (stages a b.module).run (start a b m) with
  | (.ok p, left) => handings p.foreign (m.resume left.quiet)
  | (.error _, _) => []

/-- The code of others that has a part in an emission leaves the modules of an earlier machine alone,
wherever the emission comes to it: that which is run, that which is asked, and that of warnings that say
how they are shown. -/
structure Restrained (before : Machine) (a : Assembly) (b : Builder) (m : Machine) : Prop where
  runs : ∀ p ∈ places a b.module (start a b m), ∀ l, p.launch? b.module = some l → l.Spares before
  asks : ∀ p ∈ places a b.module (start a b m), p.Asks before b.module
  words : ∀ t ∈ wordings (course a b m).events, t.isMute = false →
    Spares before (wording t.warning) t.start
  hands : ∀ t ∈ handed a b m, t.isMute = false →
    Spares before (plainStep Interpreter.top t.warning.message) t.start

theorem intact_stages {a : Assembly} (fresh : Fresh before module) (hm : m.quiet = m)
    (runs : ∀ p ∈ places a module m, ∀ l, p.launch? module = some l → l.Spares before)
    (asks : ∀ p ∈ places a module m, p.Asks before module)
    (words : ∀ es ∈ (courseOf a module m).stages, ∀ t ∈ wordings es,
      Spares before (wording t.warning) t.start) (intact : Intact before m) :
    Intact before ((stages a module).run m).2 := by
  have h : ∀ p ∈ places a module m,
      (∀ l, p.launch? module = some l → l.Spares before) ∧ p.Asks before module :=
    fun p hp => ⟨runs p hp, asks p hp⟩
  simp only [Course.stages, List.forall_mem_cons, List.not_mem_nil, false_imp_iff, implies_true,
    and_true] at words
  obtain ⟨wl, wt, wc, wr⟩ := words
  rw [places, List.forall_mem_append, List.forall_mem_map] at h
  obtain ⟨dependencies, h⟩ := h
  -- a stage leaves modules alone, and so does its drain, on the machine that the stage before it left
  rw [loading_courseOf] at wl
  refine (loading_told a module).intact_drained (fun _ _ => rfl) hm ?_ ?_
  · exact Told.intact_drained (intact_tellEach (fun v hv => spares_bindOne fresh (dependencies v hv).1
      (dependencies v hv).2) intact) wl
  intro loaded m₁ loading q hl q₁ i₁
  change (tellLoading a module).run m = _ at hl
  rw [hl, List.forall_mem_append, List.forall_mem_map] at h
  obtain ⟨usings, h⟩ := h
  rw [taking_courseOf a hl] at wt
  refine (taking_told a module loaded).intact_drained (fun _ _ => rfl) q₁ ?_ ?_
  · exact Told.intact_drained (intact_tellEach (fun v hv => spares_useOne fresh (usings v hv).2) i₁) wt
  intro us m₂ taking q ht q₂ i₂
  change (tellTaking a module loaded).run m₁ = _ at ht
  rw [ht, List.forall_mem_append] at h
  rw [checking_courseOf a hl ht] at wc
  refine (checking_told a).intact_drained (fun _ _ => rfl) q₂ ?_ ?_
  · exact Told.intact_drained
      (intact_tellEach (fun v _ => sparing_checkOne a.options.optimize v.1 before v.2) i₂) wc
  intro ps m₃ checking q hc q₃ i₃
  change (tellChecking a).run m₂ = _ at hc
  replace h := h.2
  rw [hc] at h
  rw [failed_of_gone (run_tellLoading.1 hl) (run_tellTaking.1 ht) (run_tellChecking.1 hc)]
  cases hf : (faults (loading ++ taking ++ checking)).isEmpty with
  | false => exact i₃
  | true =>
    dsimp only at h
    rw [if_pos hf, List.forall_mem_map] at h
    rw [running_courseOf a hl ht hc hf] at wr
    refine (running_told a module ps).intact_last id (fun _ _ => rfl) q₃ ?_
    exact Told.intact_drained
      (intact_tellBodies (fun v hv => spares_runOne fresh (h v hv).1 (h v hv).2) i₃) wr

theorem sparing_filtered (w : Issued) : Sparing (Service.filtered w) := by
  intro before m
  obtain ⟨action, treated⟩ := Service.run_actionFor w.kind w.line m.filters m
  rw [Spares, Service.run_filtered treated]
  cases action with
  | note => exact fun intact => intact.of_eq rfl rfl
  | drop => exact id
  | raise =>
    intro intact
    change Intact before ((Service.raiseWarning w).run m).2
    unfold Service.raiseWarning
    split
    · exact intact
    · exact (intact.push _).of_eq rfl rfl

theorem spares_handOn {ws : List Issued}
    (h : ∀ t ∈ handings ws m, Spares before (plainStep Interpreter.top t.warning.message) t.start) :
    Spares before (handOn ws) m := by
  induction ws generalizing m with
  | nil => exact .of_still (still_pure _)
  | cons w rest ih =>
    rw [handings, List.forall_mem_cons] at h
    refine Spares.bind (h.1.bind fun _ o _ => sparing_filtered w before o) fun _ n ran => ih ?_
    rw [ran] at h
    exact h.2

theorem spares_label (a : Assembly) (fresh : Fresh before module) : Spares before (label a module) m := by
  unfold label
  cases a.options.kind with
  | console =>
    refine (spares_putAttribute fresh _ _).bind fun _ _ _ => ?_
    cases a.sources with
    | nil => exact .of_still (still_pure _)
    | cons s rest => exact spares_putAttribute fresh _ _
  | library =>
    cases a.sources with
    | nil => exact .of_still (still_pure _)
    | cons s rest => exact spares_putAttribute fresh _ _

/-- An emission leaves the modules of an earlier machine alone, however it ends, if the code of others
does. -/
theorem spares_emit {a : Assembly} {b : Builder} (fresh : Fresh before b.module)
    (h : Restrained before a b m) : Spares before (emit a b) m := by
  have mute {t : Wording} {code : Run String} (plain : t.isMute = true → Spares before code t.start)
      (wild : t.isMute = false → Spares before code t.start) : Spares before code t.start := by
    cases hm : t.isMute with
    | true => exact plain hm
    | false => exact wild hm
  obtain ⟨o, labelled, started, resumed⟩ := run_label a b m
  refine (spares_label a fresh).bind fun _ n ran => ?_
  rw [labelled] at ran
  cases ran
  refine Spares.bind (fun intact => ?_) fun p n ran => ?_
  · have kept : Intact before ((stages a b.module).run (start a b m)).2 := by
      refine intact_stages fresh rfl h.runs h.asks (fun es hes t ht => ?_)
        (started ▸ intact.of_eq rfl rfl)
      refine mute Wording.spares (h.words t ?_)
      obtain ⟨event, he, ht⟩ := List.mem_filterMap.1 ht
      exact List.mem_filterMap.2 ⟨event, List.mem_flatten.2 ⟨es, hes, he⟩, ht⟩
    rw [← started] at kept
    exact kept.of_eq rfl rfl
  · obtain ⟨left, staged, rfl⟩ := of_run_capturing ran
    rw [started] at staged
    have hands := h.hands
    rw [handed, staged] at hands
    rw [resumed]
    refine (spares_handOn fun t ht => mute Wording.spares_plainStep (hands t ht)).bind fun _ _ _ => ?_
    exact Spares.bind (.of_still still_get) fun _ _ _ => .of_still (still_pure _)

end Emission

end Stencil
