import Mathlib.Data.List.Infix
import Stencil.Proofs.Compiler.Records
import Stencil.Proofs.Compiler.Restraint

/-!
Blocks within blocks. What is done with the id of the compilation in progress is a run of deeds: the id
is set, blocks are entered and left, and compilations are carried out. A run is well nested if no block
is entered while it is open, and each is left in turn; a block may be entered again later. Nothing in a
nested run touches the tokens that were there before it, so whoever leaves a block finds the token of
that block unused, and the id is what it was (`compile_scoped`).
-/

namespace Stencil

namespace Log

/-- As long as the tokens that were given out stay as they are, the last of them leads back to where it
was given out. -/
theorem Scope.exit?_of_prefix {s t : Scope} (id : Option String)
    (kept : (s.enter id).1.tokens <+: t.tokens) :
    ∃ u, t.exit? (s.enter id).2 = some u ∧ u.current = s.current ∧ s.tokens <+: u.tokens := by
  obtain ⟨more, tokens⟩ := kept
  have all : t.tokens = s.tokens ++ ⟨s.current, false⟩ :: more := by
    rw [← tokens]
    exact List.append_assoc _ _ _
  have own : t.tokens[s.tokens.length]? = some ⟨s.current, false⟩ := by
    rw [all, List.getElem?_append_right (Nat.le_refl _), Nat.sub_self, List.getElem?_cons_zero]
  refine ⟨⟨s.current, t.tokens.set s.tokens.length ⟨s.current, true⟩⟩, ?_, rfl, ?_⟩
  · rw [Scope.exit?, Scope.enter, own]
  · rw [all, List.set_append_right _ _ (Nat.le_refl _)]
    exact List.prefix_append _ _

end Log

namespace Compiler

open Log (Block Scope nonempty)

def within (c : Compiler) (context : Context) (steps : Work Product) :
    StateM Workshop (Except Failure Product) := do
  let (w, token) := c.enter context (← get)
  set w
  let result ← steps.run
  modify fun w => { w with
    scope := (w.scope.exit? token).getD w.scope
    registry := count w.elapsed w.registry result }
  return result

theorem compile_eq_within (c : Compiler) (context : Context) :
    c.compile context = c.within context (c.carryOut context) := rfl

def SparesTokens (steps : Work Product) : Prop :=
  ∀ w, w.scope.tokens <+: (steps.run.run w).2.scope.tokens

theorem sparesTokens_carryOut (c : Compiler) (context : Context) :
    SparesTokens (c.carryOut context) := by
  intro w
  rw [show (((c.carryOut context).run.run w).2.scope) = w.scope from leaves_scope c context w]

theorem SparesTokens.set {steps : Work Product} (h : SparesTokens steps) (id : Option String) :
    SparesTokens (modify (fun w : Workshop => { w with scope := w.scope.set id }) >>= fun _ => steps) :=
  fun w => h { w with scope := w.scope.set id }

theorem run_within (c : Compiler) (context : Context) (steps : Work Product) (w : Workshop) :
    (c.within context steps).run w =
      leave (c.enter context w).2 (steps.run.run (c.enter context w).1) := rfl

theorem scope_within {steps : Work Product} (spares : SparesTokens steps) (c : Compiler)
    (context : Context) (w : Workshop) :
    ((c.within context steps).run w).2.scope.current = w.scope.current ∧
      w.scope.tokens <+: ((c.within context steps).run w).2.scope.tokens := by
  obtain ⟨u, left, current, tokens⟩ := Scope.exit?_of_prefix _ (spares (c.enter context w).1)
  have scope : ((c.within context steps).run w).2.scope = u := by
    have token : (c.enter context w).2 = (w.scope.enter (some (c.moduleName context))).2 := rfl
    rw [run_within, leave]
    dsimp only
    rw [token, left, Option.getD_some]
  rw [scope]
  exact ⟨current, tokens⟩

structure Desk where
  workshop : Workshop
  blocks : Nat → Block

namespace Desk

def current (d : Desk) : Option String := d.workshop.scope.current

def withScope (d : Desk) (scope : Scope) : Desk := { d with workshop := { d.workshop with scope } }

def enter (d : Desk) (b : Nat) : Desk :=
  let (block, scope) := (d.blocks b).enter d.workshop.scope
  { d.withScope scope with blocks := Function.update d.blocks b block }

def leave? (d : Desk) (b : Nat) : Option Desk :=
  ((d.blocks b).exit? d.workshop.scope).map d.withScope

theorem blocks_enter_self (d : Desk) (b : Nat) : (d.enter b).blocks b =
    { d.blocks b with token := some (d.workshop.scope.enter (d.blocks b).id).2 } :=
  Function.update_self _ _ _

theorem blocks_enter_of_ne (d : Desk) {a b : Nat} (differ : a ≠ b) :
    (d.enter b).blocks a = d.blocks a := Function.update_of_ne differ _ _

end Desk

inductive Deed where
  | set (id : Option String)
  | enter (block : Nat)
  | leave (block : Nat)
  | compile (c : Compiler) (context : Context) (steps : Work Product)

def Deed.run? : Deed → Desk → Option Desk
  | .set id, d => some (d.withScope (d.workshop.scope.set id))
  | .enter b, d => some (d.enter b)
  | .leave b, d => d.leave? b
  | .compile c context steps, d =>
    some { d with workshop := ((c.within context steps).run d.workshop).2 }

def runAll? (d : Desk) (deeds : List Deed) : Option Desk := deeds.foldlM (fun d deed => deed.run? d) d

inductive Nested : List Nat → List Deed → Prop
  | nothing (opened : List Nat) : Nested opened []
  | set {opened : List Nat} {deeds : List Deed} (id : Option String) (rest : Nested opened deeds) :
      Nested opened (.set id :: deeds)
  | compile {opened : List Nat} {deeds : List Deed} {steps : Work Product} (c : Compiler)
      (context : Context) (spares : SparesTokens steps) (rest : Nested opened deeds) :
      Nested opened (.compile c context steps :: deeds)
  | block {opened : List Nat} {b : Nat} {inside deeds : List Deed} (closed : b ∉ opened)
      (within : Nested (b :: opened) inside) (rest : Nested opened deeds) :
      Nested opened (.enter b :: (inside ++ .leave b :: deeds))

structure Kept (opened : List Nat) (d e : Desk) : Prop where
  tokens : d.workshop.scope.tokens <+: e.workshop.scope.tokens
  blocks : ∀ b ∈ opened, e.blocks b = d.blocks b

namespace Kept

variable {opened : List Nat} {b : Nat} {d e f : Desk}

theorem refl (opened : List Nat) (d : Desk) : Kept opened d d :=
  ⟨List.prefix_refl _, fun _ _ => rfl⟩

theorem trans (first : Kept opened d e) (second : Kept opened e f) : Kept opened d f :=
  ⟨first.tokens.trans second.tokens,
    fun b member => (second.blocks b member).trans (first.blocks b member)⟩

theorem set (opened : List Nat) (d : Desk) (id : Option String) :
    Kept opened d (d.withScope (d.workshop.scope.set id)) :=
  ⟨List.prefix_refl _, fun _ _ => rfl⟩

theorem compile {steps : Work Product} (spares : SparesTokens steps) (opened : List Nat) (c : Compiler)
    (context : Context) (d : Desk) :
    Kept opened d { d with workshop := ((c.within context steps).run d.workshop).2 } :=
  ⟨(scope_within spares c context d.workshop).2, fun _ _ => rfl⟩

/-- A block whose inside keeps it can be left, and then the id is what it was before the block. -/
theorem leave (closed : b ∉ opened) (inside : Kept (b :: opened) (d.enter b) e) :
    ∃ f, e.leave? b = some f ∧ f.current = d.current ∧ Kept opened d f := by
  obtain ⟨u, left, current, tokens⟩ := Scope.exit?_of_prefix (d.blocks b).id inside.tokens
  have own := inside.blocks b List.mem_cons_self
  rw [d.blocks_enter_self] at own
  refine ⟨e.withScope u, ?_, current, tokens, fun a member => ?_⟩
  · rw [Desk.leave?, Block.exit?, own]
    dsimp only
    rw [left, Option.map_some]
  · have differ : a ≠ b := fun same => closed (same ▸ member)
    exact (inside.blocks a (List.mem_cons_of_mem b member)).trans (d.blocks_enter_of_ne differ)

end Kept

theorem runAll?_cons (d : Desk) (deed : Deed) (deeds : List Deed) :
    runAll? d (deed :: deeds) = (deed.run? d).bind fun e => runAll? e deeds := List.foldlM_cons

theorem runAll?_append (d : Desk) (front back : List Deed) :
    runAll? d (front ++ back) = (runAll? d front).bind fun e => runAll? e back := List.foldlM_append

theorem Nested.mono {opened fewer : List Nat} {deeds : List Deed} (h : Nested opened deeds)
    (sub : fewer ⊆ opened) : Nested fewer deeds := by
  induction h generalizing fewer with
  | nothing => exact .nothing fewer
  | set id _ ih => exact .set id (ih sub)
  | compile c context spares _ ih => exact .compile c context spares (ih sub)
  | block closed _ _ ihWithin ih =>
    exact .block (fun member => closed (sub member)) (ihWithin (List.cons_subset_cons _ sub)) (ih sub)

theorem Nested.exists_run {opened : List Nat} {deeds : List Deed} (h : Nested opened deeds) (d : Desk) :
    ∃ e, runAll? d deeds = some e ∧ Kept opened d e := by
  induction h generalizing d with
  | nothing opened => exact ⟨d, rfl, .refl opened d⟩
  | @set opened deeds id rest ih =>
    obtain ⟨e, ran, kept⟩ := ih (d.withScope (d.workshop.scope.set id))
    exact ⟨e, ran, (Kept.set opened d id).trans kept⟩
  | @compile opened deeds steps c context spares rest ih =>
    obtain ⟨e, ran, kept⟩ := ih { d with workshop := ((c.within context steps).run d.workshop).2 }
    exact ⟨e, ran, (Kept.compile spares opened c context d).trans kept⟩
  | @block opened b inside deeds closed within rest ihWithin ih =>
    -- What is inside keeps the token that the entry gave out, since it was there before.
    obtain ⟨e, ran, kept⟩ := ihWithin (d.enter b)
    obtain ⟨f, left, -, first⟩ := Kept.leave closed kept
    obtain ⟨g, ended, second⟩ := ih f
    refine ⟨g, ?_, first.trans second⟩
    rw [runAll?_cons, Deed.run?, Option.bind_some, runAll?_append, ran, Option.bind_some, runAll?_cons,
      Deed.run?, left, Option.bind_some, ended]

/-- A block from its entry on: it begins with its own id and keeps it through compilations, can be left
after all that is inside, and then the id is what it was. -/
structure Restores (d : Desk) (b : Nat) (inside : List Deed) : Prop where
  own : ∀ front rest, inside = front ++ rest →
    (∀ deed ∈ front, ∃ c context steps, deed = .compile c context steps) →
    ∃ e, runAll? (d.enter b) front = some e ∧ e.current = nonempty (d.blocks b).id
  back : ∃ e f, runAll? (d.enter b) inside = some e ∧ e.leave? b = some f ∧ f.current = d.current

theorem Nested.exists_run_compiles {opened : List Nat} {front rest : List Deed}
    (h : Nested opened (front ++ rest))
    (compiles : ∀ deed ∈ front, ∃ c context steps, deed = .compile c context steps) (d : Desk) :
    ∃ e, runAll? d front = some e ∧ e.current = d.current := by
  induction front generalizing d with
  | nil => exact ⟨d, rfl, rfl⟩
  | cons deed front ih =>
    rw [List.forall_mem_cons] at compiles
    obtain ⟨⟨c, context, steps, rfl⟩, others⟩ := compiles
    cases h with | compile _ _ spares later
    obtain ⟨e, ran, same⟩ :=
      ih later others { d with workshop := ((c.within context steps).run d.workshop).2 }
    exact ⟨e, ran, same.trans (scope_within spares c context d.workshop).1⟩

theorem Nested.restores {opened : List Nat} {b : Nat} {inside : List Deed}
    (h : Nested (b :: opened) inside) (d : Desk) : Restores d b inside where
  own := by
    rintro front rest rfl compiles
    exact h.exists_run_compiles compiles (d.enter b)
  back := by
    -- What else is open around the block says nothing about its own token.
    have alone : Nested [b] inside := h.mono (List.cons_subset_cons b (List.nil_subset opened))
    obtain ⟨e, ran, kept⟩ := alone.exists_run (d.enter b)
    obtain ⟨f, left, current, -⟩ := Kept.leave List.not_mem_nil kept
    exact ⟨e, f, ran, left, current⟩

theorem id_run? {deed : Deed} {d e : Desk} (h : deed.run? d = some e) (b : Nat) :
    (e.blocks b).id = (d.blocks b).id := by
  cases deed with
  | set id | compile c context steps =>
    cases h
    rfl
  | enter a =>
    cases h
    obtain rfl | differ := eq_or_ne b a
    · rw [d.blocks_enter_self]
    · rw [d.blocks_enter_of_ne differ]
  | leave a =>
    obtain ⟨scope, -, rfl⟩ := Option.map_eq_some_iff.1 h
    rfl

theorem id_runAll? {deeds : List Deed} {d e : Desk} (h : runAll? d deeds = some e) (b : Nat) :
    (e.blocks b).id = (d.blocks b).id := by
  induction deeds generalizing d with
  | nil =>
    cases h
    rfl
  | cons deed deeds ih =>
    rw [runAll?_cons] at h
    obtain ⟨f, first, later⟩ := Option.bind_eq_some_iff.1 h
    exact (ih later).trans (id_run? first b)

/-- A nested run comes to its end, and each block in it restores the id. A call is such a block: all that
it writes shows its own id, and the id after it is the one before it. -/
theorem compile_scoped {deeds before inside after : List Deed} {b : Nat} {opened : List Nat}
    (nested : Nested [] deeds) (parts : deeds = before ++ .enter b :: (inside ++ .leave b :: after))
    (matching : Nested (b :: opened) inside) (d : Desk) :
    (∃ e f, runAll? d before = some e ∧ Restores e b inside ∧ (e.blocks b).id = (d.blocks b).id ∧
        runAll? d deeds = some f) ∧
      ∀ k : Call, k.begun.scope.current = some (k.compiler.moduleName k.context) ∧
        (∃ rs, k.Logs rs ∧ Course k.context k.resolves rs ∧ ∀ journal h, journal.handler = some h →
          h.layout = .json → ∃ lines, k.Shows rs "compile_id"
            (fun _ => .text (k.compiler.moduleName k.context)) journal h lines) ∧
        k.after.scope.current = k.workshop.scope.current := by
  constructor
  · obtain ⟨f, ran, -⟩ := nested.exists_run d
    have begun := ran
    rw [parts, runAll?_append] at begun
    obtain ⟨e, first, -⟩ := Option.bind_eq_some_iff.1 begun
    exact ⟨e, f, first, matching.restores e, id_runAll? first b, ran⟩
  · intro k
    have begun : k.begun.scope.current = k.id := rfl
    obtain ⟨rs, logs, course⟩ := exists_course k
    refine ⟨begun.trans k.id_eq,
      ⟨rs, logs, course, fun _ _ taken json => course.shows_compileId logs taken json⟩, ?_⟩
    rw [Call.after, compile_eq_within]
    exact (scope_within (sparesTokens_carryOut k.compiler k.context) _ _ _).1

/-- A block that is entered again, now around a compilation that sets the id and a block with an empty
id. -/
theorem compile_scoped_reentered :
    let context : Context := { source := "class T: pass\n", className := "T" }
    let steps : Work Product := modify (fun w => { w with scope := w.scope.set (some "z") }) >>= fun _ =>
      ({} : Compiler).carryOut context
    let before : List Deed := [.set (some "y"), .enter 0, .leave 0]
    let inside : List Deed := [.compile {} context steps, .set (some "x"), .enter 1, .leave 1]
    let after : List Deed := [.enter 1, .leave 1]
    let d : Desk :=
      { workshop := { machine := {} }, blocks := fun b => { id := some (if b = 0 then "a" else "") } }
    Nested [] (before ++ .enter 0 :: (inside ++ .leave 0 :: after)) ∧ Nested [0] inside ∧
      ∃ e f, runAll? d before = some e ∧ Restores e 0 inside ∧ (e.blocks 0).id = some "a" ∧
        runAll? d (before ++ .enter 0 :: (inside ++ .leave 0 :: after)) = some f := by
  intro context steps before inside after d
  have matching : Nested [0] inside :=
    .compile _ _ ((sparesTokens_carryOut _ _).set _)
      (.set _ (.block (by decide) (.nothing _) (.nothing _)))
  have nested : Nested [] (before ++ .enter 0 :: (inside ++ .leave 0 :: after)) :=
    .set _ (.block (by decide) (.nothing _) (.block (by decide) matching
      (.block (by decide) (.nothing _) (.nothing _))))
  exact ⟨nested, matching, (compile_scoped nested rfl matching d).1⟩

end Compiler

end Stencil
