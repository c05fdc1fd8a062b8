import Stencil.Proofs.Compiler.Lookup

/-!
Looking for a class by its qualified name. The name is followed from the module, and ends with the
class that it leads to or with nothing, unless more names follow on a value that keeps no attributes,
such as a number or a text: then the lookup fails, and a compilation with it (`typeNamed_answers`).
-/

namespace Stencil

open Script Run

namespace Builder

section search

variable {m : Machine} {b : Builder} {qualified : String}

theorem blocked_iff_leads {v : Value} {names : List String} :
    Blocked m v names ↔ ∃ before name rest bare, names = before ++ name :: rest ∧
      Leads m v before bare ∧ heldBy? m bare = none := by
  constructor
  · intro blocked
    induction blocked with
    | @here v name rest bare => exact ⟨[], name, rest, v, rfl, .here v, bare⟩
    | @onward v found first later attrs held entry something _ ih =>
      obtain ⟨before, name, rest, bare, rfl, leads, lacks⟩ := ih
      exact ⟨first :: before, name, rest, bare, rfl, .onward held entry something leads, lacks⟩
  · rintro ⟨before, name, rest, bare, rfl, leads, lacks⟩
    induction leads with
    | here v => exact .here lacks
    | onward held entry something _ ih => exact .onward held entry something (ih lacks)

theorem not_blocked_of_leads {v w : Value} {names : List String} (leads : Leads m v names w) :
    ¬Blocked m v names := by
  intro blocked
  obtain ⟨message, failed⟩ := follow_of_blocked blocked
  rw [follow_of_leads leads] at failed
  cases failed

def Reaches (m : Machine) (b : Builder) (qualified : String) (cls : ClassRef) : Prop :=
  ∃ name, qualified = b.space ++ "." ++ name ∧
    Leads m (.object b.module) (Text.pieces '.' name) (.cls cls)

def Obstructed (m : Machine) (b : Builder) (qualified : String) : Prop :=
  ∃ name, qualified = b.space ++ "." ++ name ∧
    ∃ before next rest bare, Text.pieces '.' name = before ++ next :: rest ∧
      Leads m (.object b.module) before bare ∧ heldBy? m bare = none

theorem obstructed_iff : Obstructed m b qualified ↔
    ∃ name, qualified = b.space ++ "." ++ name ∧
      Blocked m (.object b.module) (Text.pieces '.' name) := by
  simp only [Obstructed, blocked_iff_leads]

theorem typeNamed_outside (h : ∀ name, qualified ≠ b.space ++ "." ++ name) :
    typeNamed m b qualified = .ok none := by
  refine if_neg fun starts => ?_
  obtain ⟨rest, whole⟩ := List.isPrefixOf_iff_prefix.1 starts
  refine h (String.ofList rest) (String.toList_inj.1 ?_)
  rw [String.toList_append, String.toList_ofList, whole]

structure Search (m : Machine) (b : Builder) (qualified : String)
    (result : Except String (Option ClassRef)) : Prop where
  found : ∀ cls, result = .ok (some cls) ↔ Reaches m b qualified cls
  failed : (∃ message, result = .error message) ↔ Obstructed m b qualified
  nothing : result = .ok none ↔
    ¬Obstructed m b qualified ∧ ∀ cls, ¬Reaches m b qualified cls

variable (m b qualified) in
theorem typeNamed_search : Search m b qualified (typeNamed m b qualified) := by
  by_cases inside : ∃ name, qualified = b.space ++ "." ++ name
  · obtain ⟨name, rfl⟩ := inside
    have reaches (cls : ClassRef) : Reaches m b (b.space ++ "." ++ name) cls ↔
        follow m (.object b.module) (Text.pieces '.' name) = .ok (some (.cls cls)) := by
      rw [← leads_iff]
      refine ⟨?_, fun leads => ⟨name, rfl, leads⟩⟩
      rintro ⟨same, spelled, leads⟩
      rwa [(String.append_right_inj _).1 spelled]
    have obstructed : Obstructed m b (b.space ++ "." ++ name) ↔
        ∃ message, follow m (.object b.module) (Text.pieces '.' name) = .error message := by
      rw [obstructed_iff, ← blocked_iff]
      refine ⟨?_, fun blocked => ⟨name, rfl, blocked⟩⟩
      rintro ⟨same, spelled, blocked⟩
      rwa [(String.append_right_inj _).1 spelled]
    rw [typeNamed_append]
    rcases hf : follow m (.object b.module) (Text.pieces '.' name) with message | _ | v
    · constructor <;> simp [reaches, obstructed, hf, Except.map]
    · constructor <;> simp [reaches, obstructed, hf, Except.map]
    · cases v <;> constructor <;> simp [reaches, obstructed, hf, Except.map]
  · have outside : ∀ name, qualified ≠ b.space ++ "." ++ name := fun name same => inside ⟨name, same⟩
    rw [typeNamed_outside outside]
    constructor <;> simp [Reaches, Obstructed, outside]

/-- The law of lookups: a name that leads to a class has it for its answer, every other name has none,
and no lookup fails. -/
structure Lawful (m : Machine) (b : Builder) (qualified : String)
    (result : Except String (Option ClassRef)) : Prop where
  found : ∀ cls, Reaches m b qualified cls → result = .ok (some cls)
  otherwise : (∀ cls, ¬Reaches m b qualified cls) → result = .ok none

theorem Search.lawful_iff {result : Except String (Option ClassRef)}
    (h : Search m b qualified result) :
    Lawful m b qualified result ↔ ¬Obstructed m b qualified := by
  constructor
  · rintro ⟨found, otherwise⟩ obstructed
    obtain ⟨message, failed⟩ := h.failed.2 obstructed
    by_cases reached : ∃ cls, Reaches m b qualified cls
    · obtain ⟨cls, reaches⟩ := reached
      rw [found cls reaches] at failed
      cases failed
    · rw [otherwise fun cls reaches => reached ⟨cls, reaches⟩] at failed
      cases failed
  · intro free
    exact ⟨fun cls reaches => (h.found cls).2 reaches, fun none => h.nothing.2 ⟨free, none⟩⟩

end search

end Builder

namespace Compiler

def Concludes (context : Context) (path : String) (result : Except Failure Product) : Prop :=
  (∃ product, result = .ok product) ∨ Misses context path result

theorem concludes_iff {c : Compiler} {context : Context} {r : Emitted} {entries : List Report.Entry}
    {m : Machine} (space : r.builder.space = c.space) (success : r.emission.success = true) :
    Concludes context r.path (c.verdict context r entries m) ↔
      r.emission.isUncollectible = false ∧ ¬Blocked m r.builder context := by
  cases hu : r.emission.isUncollectible with
  | true => simp [Concludes, Misses, verdict_of_uncollectible success hu]
  | false =>
    have answers : Answers m context r (c.verdict context r entries m) :=
      verdict_answers space success hu
    rw [Concludes, answers.missing]
    constructor
    · rintro (⟨product, handed⟩ | ⟨free, -⟩)
      · exact ⟨rfl, Builder.not_blocked_of_leads ((answers.found _).1 ⟨product, handed, rfl⟩)⟩
      · exact ⟨rfl, free⟩
    · rintro ⟨-, free⟩
      by_cases finds : ∃ cls, Finds m r.builder context cls
      · obtain ⟨cls, finds⟩ := finds
        obtain ⟨product, handed, -⟩ := (answers.found cls).2 finds
        exact .inl ⟨product, handed⟩
      · exact .inr ⟨free, fun cls found => finds ⟨cls, found⟩⟩

theorem exists_verdict {c : Compiler} {context : Context} {r : Emitted} {w w' : Workshop}
    (standard : c.backend.emit = Emission.emit)
    (space : ∀ name m b n, (c.define name).run m = (.ok b, n) → b.space = c.space)
    (h : (c.toEmission context).run.run (c.enter context w).1 = (.ok r, w')) :
    r.builder.space = c.space ∧
      ∃ entries, ((c.compile context).run w).1 = c.verdict context r entries w'.machine := by
  obtain ⟨a, m, n, made, ran, -⟩ := of_run_toEmission h
  rw [standard] at ran
  obtain ⟨entries, converted, -⟩ := Report.shows_of_placed (Emission.emit_sound ran).placed
  exact ⟨space _ _ _ _ made, entries, compile_eq_verdict h converted⟩

/-- A lookup in any module, and what lookups make of compilations whose emission succeeded. -/
theorem typeNamed_answers (m : Machine) (b : Builder) (qualified : String) :
    Builder.Search m b qualified (b.typeNamed m qualified) ∧
    (Builder.Lawful m b qualified (b.typeNamed m qualified) ↔ ¬Builder.Obstructed m b qualified) ∧
    ∀ (c : Compiler) (context : Context) (r : Emitted) (w w' : Workshop),
      c.backend.emit = Emission.emit →
      (∀ name m b n, (c.define name).run m = (.ok b, n) → b.space = c.space) →
      (c.toEmission context).run.run (c.enter context w).1 = (.ok r, w') →
      r.emission.success = true →
        (Concludes context r.path ((c.compile context).run w).1 ↔
          r.emission.isUncollectible = false ∧
            ¬Builder.Obstructed w'.machine r.builder (c.moduleName context)) := by
  have search := Builder.typeNamed_search m b qualified
  refine ⟨search, search.lawful_iff, fun c context r w w' standard space h success => ?_⟩
  obtain ⟨within, entries, result⟩ := exists_verdict standard space h
  rw [result, concludes_iff within success, ← typeNamed_eq_error_iff within,
    (Builder.typeNamed_search _ _ _).failed]

/-- A source that defines its class, nested in another one. -/
theorem typeNamed_answers_nested :
    let c : Compiler := {}
    let context : Context :=
      { source := "class T:\n    class U: pass\n", className := "T.U" }
    let w : Workshop := { machine := { files := { folders := [["tmp"]] } } }
    ∃ r w', (c.toEmission context).run.run (c.enter context w).1 = (.ok r, w') ∧
      r.emission.success = true ∧
      Concludes context r.path ((c.compile context).run w).1 ∧
      ¬Builder.Obstructed w'.machine r.builder (c.moduleName context) := by
  intro c context w
  have emitted : ((c.toEmission context).run.run (c.enter context w).1).1.toOption.map
      (fun r => r.emission.success) = some true := by
    decide +kernel
  obtain ⟨r, w', ran, success⟩ := Emission.returned emitted
  have handed : ((c.compile context).run w).1.toOption.isSome = true := by
    decide +kernel
  have concluded : Concludes context r.path ((c.compile context).run w).1 := by
    cases hr : ((c.compile context).run w).1 with
    | error failure =>
      rw [hr] at handed
      cases handed
    | ok product => exact .inl ⟨product, rfl⟩
  have answers := typeNamed_answers w'.machine r.builder (c.moduleName context)
  exact ⟨r, w', ran, success, concluded,
    ((answers.2.2 c context r w w' rfl (fun _ _ _ _ => space_of_make) ran success).1 concluded).2⟩

/-- A name that goes on after a number: the lookup fails, and so does the compilation. -/
theorem typeNamed_fails :
    let m : Machine := { heap := #[.module (.ofList [("T", .int 5)])] }
    let b : Builder := ⟨"kiln.test", "kiln.test", .runAndCollect, 0⟩
    let c : Compiler := {}
    let context : Context := { source := "T = 5\n", className := "T.U" }
    let w : Workshop := { machine := { files := { folders := [["tmp"]] } } }
    ¬Builder.Lawful m b "kiln.test.T.U" (b.typeNamed m "kiln.test.T.U") ∧
      ∃ r w', (c.toEmission context).run.run (c.enter context w).1 = (.ok r, w') ∧
        r.emission.success = true ∧ r.emission.isUncollectible = false ∧
        ∀ path, ¬Concludes context path ((c.compile context).run w).1 := by
  intro m b c context w
  constructor
  · have obstructed : Builder.Obstructed m b "kiln.test.T.U" :=
      ⟨"T.U", rfl, ["T"], "U", [], .int 5, by decide,
        .onward rfl rfl (by simp) (.here _), rfl⟩
    exact fun lawful => (Builder.typeNamed_search m b _).lawful_iff.1 lawful obstructed
  · have emitted : ((c.toEmission context).run.run (c.enter context w).1).1.toOption.map (fun r =>
        (r.emission.success, r.emission.isUncollectible, (r.builder.typeNamed
          ((c.toEmission context).run.run (c.enter context w).1).2.machine
          (c.moduleName context)).isOk)) = some (true, false, false) := by
      decide +kernel
    obtain ⟨r, w', ran, ended⟩ := Emission.returned emitted
    rw [ran] at ended
    simp only [Prod.mk.injEq] at ended
    obtain ⟨success, collectible, looked⟩ := ended
    obtain ⟨within, entries, result⟩ := exists_verdict rfl (fun name m b n made => by
      cases made
      rfl) ran
    have failed : ∃ message, r.builder.typeNamed w'.machine (c.moduleName context) =
        .error message := by
      cases ht : r.builder.typeNamed w'.machine (c.moduleName context) with
      | error message => exact ⟨message, rfl⟩
      | ok found =>
        rw [ht] at looked
        cases looked
    refine ⟨r, w', ran, success, collectible, fun path concluded => ?_⟩
    have answers : Answers w'.machine context r ((c.compile context).run w).1 := by
      rw [result]
      exact verdict_answers within success collectible
    obtain ⟨message, lookup⟩ := answers.blocked.2 ((typeNamed_eq_error_iff within).1 failed)
    rw [lookup] at concluded
    obtain ⟨product, ⟨⟩⟩ | ⟨report, artifacts, ⟨⟩, -⟩ := concluded

end Compiler

end Stencil
