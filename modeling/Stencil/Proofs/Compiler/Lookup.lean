import Stencil.Proofs.Compiler.Verdict
import Stencil.Proofs.Emission.Gate

/-!
The class that a compilation hands over: whatever class the parts of the class name lead to from the
emitted module, one attribute after the other. What dependencies and namespaces have put there counts
like what the source says, so the class is the source's own only if nothing else was put in its place
(`compile_finds`).
-/

namespace Stencil

open Script Run

namespace Builder

variable {m : Machine}

/-- Names lead from a value to another: each of them is an attribute of what those before led to. -/
inductive Leads (m : Machine) : Value → List String → Value → Prop
  | here (v : Value) : Leads m v [] v
  | onward {v found w : Value} {name : String} {rest : List String} {attrs : Bindings Value}
      (held : heldBy? m v = some attrs) (entry : attrs.get? name = some found)
      (something : found ≠ .none) (later : Leads m found rest w) : Leads m v (name :: rest) w

inductive Blocked (m : Machine) : Value → List String → Prop
  | here {v : Value} {name : String} {rest : List String} (bare : heldBy? m v = none) :
      Blocked m v (name :: rest)
  | onward {v found : Value} {name : String} {rest : List String} {attrs : Bindings Value}
      (held : heldBy? m v = some attrs) (entry : attrs.get? name = some found)
      (something : found ≠ .none) (later : Blocked m found rest) : Blocked m v (name :: rest)

theorem follow_onward {v found : Value} {name : String} {rest : List String} {attrs : Bindings Value}
    (held : heldBy? m v = some attrs) (entry : attrs.get? name = some found)
    (something : found ≠ .none) : follow m v (name :: rest) = follow m found rest := by
  rw [follow, held]
  dsimp only
  rw [entry]
  cases found with
  | none => exact absurd rfl something
  | _ => rfl

theorem follow_of_leads {v w : Value} {names : List String} (h : Leads m v names w) :
    follow m v names = .ok (some w) := by
  induction h with
  | here v => rfl
  | onward held entry something later ih => rw [follow_onward held entry something, ih]

theorem follow_of_blocked {v : Value} {names : List String} (h : Blocked m v names) :
    ∃ message, follow m v names = .error message := by
  induction h with
  | here bare => exact ⟨_, by rw [follow, bare]⟩
  | onward held entry something later ih =>
    rw [follow_onward held entry something]
    exact ih

variable (m) in
theorem follow_cases (v : Value) (names : List String) :
    (∃ w, Leads m v names w) ∨ Blocked m v names ∨ follow m v names = .ok none := by
  induction names generalizing v with
  | nil => exact .inl ⟨v, .here v⟩
  | cons name rest ih =>
    cases held : heldBy? m v with
    | none => exact .inr (.inl (.here held))
    | some attrs =>
      by_cases something : ∃ found, attrs.get? name = some found ∧ found ≠ .none
      · obtain ⟨found, entry, something⟩ := something
        obtain ⟨w, leads⟩ | blocked | nothing := ih found
        · exact .inl ⟨w, .onward held entry something leads⟩
        · exact .inr (.inl (.onward held entry something blocked))
        · exact .inr (.inr ((follow_onward held entry something).trans nothing))
      · refine .inr (.inr ?_)
        rw [follow, held]
        dsimp only
        cases entry : attrs.get? name with
        | none => rfl
        | some found =>
          cases found with
          | none => rfl
          | _ => exact absurd ⟨_, entry, by rintro ⟨⟩⟩ something

theorem leads_iff {v w : Value} {names : List String} :
    Leads m v names w ↔ follow m v names = .ok (some w) := by
  refine ⟨follow_of_leads, fun h => ?_⟩
  obtain ⟨w', leads⟩ | blocked | nothing := follow_cases m v names
  · rw [follow_of_leads leads] at h
    cases h
    exact leads
  · obtain ⟨_, failed⟩ := follow_of_blocked blocked
    rw [failed] at h
    cases h
  · rw [nothing] at h
    cases h

theorem blocked_iff {v : Value} {names : List String} :
    Blocked m v names ↔ ∃ message, follow m v names = .error message := by
  refine ⟨follow_of_blocked, fun ⟨message, h⟩ => ?_⟩
  obtain ⟨w', leads⟩ | blocked | nothing := follow_cases m v names
  · rw [follow_of_leads leads] at h
    cases h
  · exact blocked
  · rw [nothing] at h
    cases h

theorem typeNamed_append (m : Machine) (b : Builder) (name : String) :
    typeNamed m b (b.space ++ "." ++ name) =
      (follow m (.object b.module) (Text.pieces '.' name)).map fun
        | some (.cls c) => some c
        | _ => none := by
  have rest : (b.space ++ "." ++ name).toList = (b.space ++ ".").toList ++ name.toList :=
    String.toList_append
  have starts : (b.space ++ ".").toList.isPrefixOf (b.space ++ "." ++ name).toList = true := by
    rw [rest, List.isPrefixOf_iff_prefix]
    exact List.prefix_append _ _
  unfold typeNamed
  dsimp only
  rw [if_pos starts, rest, List.drop_left, String.ofList_toList]
  rcases follow m (.object b.module) (Text.pieces '.' name) with message | _ | v
  · rfl
  · rfl
  · cases v <;> rfl

end Builder

namespace Compiler

def Finds (m : Machine) (b : Builder) (context : Context) (cls : ClassRef) : Prop :=
  Builder.Leads m (.object b.module) (Text.pieces '.' context.className) (.cls cls)

def Blocked (m : Machine) (b : Builder) (context : Context) : Prop :=
  Builder.Blocked m (.object b.module) (Text.pieces '.' context.className)

def Misses (context : Context) (path : String) (result : Except Failure Product) : Prop :=
  ∃ report artifacts, result = .error (.rejected report artifacts) ∧
    missingEntry context.className path ∈ report.entries

structure Answers (m : Machine) (context : Context) (r : Emitted) (result : Except Failure Product) :
    Prop where
  found : ∀ cls, (∃ product, result = .ok product ∧ product.cls = cls) ↔ Finds m r.builder context cls
  blocked : (∃ message, result = .error (.lookup message)) ↔ Blocked m r.builder context
  missing : Misses context r.path result ↔
    ¬Blocked m r.builder context ∧ ∀ cls, ¬Finds m r.builder context cls

section answers

variable {c : Compiler} {context : Context} {r : Emitted} {entries : List Report.Entry} {m : Machine}

theorem typeNamed_eq_some_iff (space : r.builder.space = c.space) {cls : ClassRef} :
    r.builder.typeNamed m (c.moduleName context) = .ok (some cls) ↔ Finds m r.builder context cls := by
  rw [moduleName, ← space, Builder.typeNamed_append, Finds, Builder.leads_iff]
  rcases Builder.follow m (.object r.builder.module) (Text.pieces '.' context.className) with
    message | _ | v
  · simp [Except.map]
  · simp [Except.map]
  · cases v <;> simp [Except.map]

theorem typeNamed_eq_error_iff (space : r.builder.space = c.space) :
    (∃ message, r.builder.typeNamed m (c.moduleName context) = .error message) ↔
      Blocked m r.builder context := by
  rw [moduleName, ← space, Builder.typeNamed_append, Blocked, Builder.blocked_iff]
  cases Builder.follow m (.object r.builder.module) (Text.pieces '.' context.className) <;>
    simp [Except.map]

theorem verdict_answers (space : r.builder.space = c.space) (success : r.emission.success = true)
    (collectible : r.emission.isUncollectible = false) :
    Answers m context r (c.verdict context r entries m) := by
  have finds (cls : ClassRef) : Finds m r.builder context cls ↔
      r.builder.typeNamed m (c.moduleName context) = .ok (some cls) :=
    (typeNamed_eq_some_iff space).symm
  have blocked : Blocked m r.builder context ↔
      ∃ message, r.builder.typeNamed m (c.moduleName context) = .error message :=
    (typeNamed_eq_error_iff space).symm
  rcases ht : r.builder.typeNamed m (c.moduleName context) with message | _ | cls
  · rw [verdict_of_blocked success collectible ht]
    constructor <;> simp [finds, blocked, ht, Misses]
  · obtain ⟨report, artifacts, result, entries⟩ := verdict_of_missing success collectible ht
    rw [result]
    constructor <;> simp [finds, blocked, ht, Misses, entries]
  · obtain ⟨product, result, same, -⟩ := verdict_of_found success collectible ht
    rw [result]
    constructor <;> simp [finds, blocked, ht, Misses, same, eq_comm]

end answers

def Own (before after : Machine) (space name : String) : ClassRef → Prop
  | .library _ => False
  | .defined ref => before.heap.size ≤ ref ∧ ∃ k, after.heap[ref]? = some (.cls k) ∧
      k.path = name ∧ k.attributes.get? "__module__" = some (.text space)

/-- The law of the class: only the source's own class is handed over, and a source without one is
rejected for lacking it. -/
structure Lawful (own : ClassRef → Prop) (context : Context) (path : String)
    (result : Except Failure Product) : Prop where
  handed : ∀ product, result = .ok product → own product.cls
  missing : (∀ cls, ¬own cls) → Misses context path result

theorem Answers.lawful_iff {m : Machine} {context : Context} {r : Emitted}
    {result : Except Failure Product} (h : Answers m context r result) (own : ClassRef → Prop) :
    Lawful own context r.path result ↔
      (∀ cls, Finds m r.builder context cls → own cls) ∧
        (Blocked m r.builder context → ∃ cls, own cls) := by
  constructor
  · rintro ⟨owned, missing⟩
    refine ⟨fun cls finds => ?_, fun blocked => ?_⟩
    · obtain ⟨product, result, rfl⟩ := (h.found cls).2 finds
      exact owned product result
    · refine Classical.byContradiction fun none => ?_
      exact (h.missing.1 (missing fun cls own => none ⟨cls, own⟩)).1 blocked
  · rintro ⟨owned, beside⟩
    refine ⟨fun product result => owned _ ((h.found _).1 ⟨product, result, rfl⟩), fun none => ?_⟩
    refine h.missing.2 ⟨fun blocked => ?_, fun cls finds => none cls (owned cls finds)⟩
    obtain ⟨cls, own⟩ := beside blocked
    exact none cls own

theorem running_of_success {a : Assembly} {b : Builder} {m n : Machine} {e : Emission} {s : Source}
    (h : (Emission.emit a b).run m = (.ok e, n)) (success : e.success = true)
    (sources : a.sources = [s]) :
    ∃ p before, Emission.trials (Emission.course a b m).running = [⟨.body p, before, none⟩] := by
  obtain ⟨carried, -, successful, -⟩ := Emission.emit_course h
  obtain ⟨well, ended⟩ := carried.faults_eq_nil_iff.1 (successful.1 success)
  have programs := carried.programs_whole fun t ht => well t (by simp [ht])
  rw [sources] at programs
  obtain ⟨p, only⟩ : ∃ p, Emission.programsOf a = [p] := by
    have single := congrArg List.length programs
    simp only [List.length_map, List.length_singleton] at single
    exact List.length_eq_one_iff.1 single.symm
  rw [only] at ended
  obtain ⟨⟨i, before, fault⟩, trial⟩ : ∃ t, Emission.trials (Emission.course a b m).running = [t] := by
    have single := congrArg List.length ended
    simp only [List.length_map, List.length_singleton] at single
    exact List.length_eq_one_iff.1 single
  rw [trial] at ended
  cases ended
  exact ⟨p, before, trial⟩

theorem space_of_make {name space : String} {access : ModuleAccess} {b : Builder} {m n : Machine}
    (made : (Builder.make name space access).run m = (.ok b, n)) : b.space = space := by
  cases made
  rfl

theorem compile_finds {c : Compiler} {context : Context} {r : Emitted} {w w' : Workshop}
    (standard : c.backend.emit = Emission.emit)
    (space : ∀ name m b n, (c.define name).run m = (.ok b, n) → b.space = c.space)
    (h : (c.toEmission context).run.run (c.enter context w).1 = (.ok r, w'))
    (success : r.emission.success = true) (collectible : r.emission.isUncollectible = false) :
    Answers w'.machine context r ((c.compile context).run w).1 ∧
      ∃ a m p before, (Emission.emit a r.builder).run m = (.ok r.emission, w'.machine) ∧
        (∃ id, a.sources = [⟨id, context.source, r.path⟩]) ∧
        Emission.trials (Emission.course a r.builder m).running = [⟨.body p, before, none⟩] ∧
        (Lawful (Own before w'.machine c.space context.className) context r.path
            ((c.compile context).run w).1 ↔
          (∀ cls, Finds w'.machine r.builder context cls →
            Own before w'.machine c.space context.className cls) ∧
          (Blocked w'.machine r.builder context →
            ∃ cls, Own before w'.machine c.space context.className cls)) := by
  obtain ⟨a, m, n, made, ran, id, sources⟩ := of_run_toEmission h
  rw [standard] at ran
  obtain ⟨entries, converted, -⟩ := Report.shows_of_placed (Emission.emit_sound ran).placed
  obtain ⟨p, before, running⟩ := running_of_success ran success sources
  have answers : Answers w'.machine context r ((c.compile context).run w).1 := by
    rw [compile_eq_verdict h converted]
    exact verdict_answers (space _ _ _ _ made) success collectible
  exact ⟨answers, a, n, p, before, ran, ⟨id, sources⟩, running, answers.lawful_iff _⟩

/-- A source that defines its class. -/
theorem compile_finds_defined :
    let c : Compiler := {}
    let context : Context := { source := "class T: pass\n", className := "T" }
    let w : Workshop := { machine := { files := { folders := [["tmp"]] } } }
    ∃ r w', (c.toEmission context).run.run (c.enter context w).1 = (.ok r, w') ∧
      Answers w'.machine context r ((c.compile context).run w).1 := by
  intro c context w
  have emitted : ((c.toEmission context).run.run (c.enter context w).1).1.toOption.map
      (fun r => (r.emission.success, r.emission.isUncollectible)) = some (true, false) := by
    decide +kernel
  obtain ⟨r, w', ran, ended⟩ := Emission.returned emitted
  obtain ⟨success, collectible⟩ := Prod.mk.inj ended
  exact ⟨r, w', ran, (compile_finds rfl (fun _ _ _ _ => space_of_make) ran success collectible).1⟩

/-- A class of a namespace that is taken in is handed over for a source that defines nothing. -/
theorem compile_foreign :
    let c : Compiler := {}
    let context : Context :=
      { source := "x = 1\n", className := "TemplateBase", namespaces := ["base"]
        references := [.module 0] }
    let m : Machine :=
      { heap := #[.module (.ofList [("__name__", .text "base"),
          ("TemplateBase", .cls (.library Library.templateClass))])]
        files := { folders := [["tmp"]] } }
    let w : Workshop := { machine := m }
    ((c.compile context).run w).1.toOption.map Product.cls = some (.library Library.templateClass) ∧
      ∀ path before after,
        ¬Lawful (Own before after c.space context.className) context path ((c.compile context).run w).1 := by
  intro c context m w
  have found : ((c.compile context).run w).1.toOption.map Product.cls =
      some (.library Library.templateClass) := by
    decide +kernel
  refine ⟨found, fun path before after lawful => ?_⟩
  obtain ⟨product, result, cls⟩ : ∃ product, ((c.compile context).run w).1 = .ok product ∧
      product.cls = .library Library.templateClass := by
    obtain ⟨product, _, result, cls⟩ := Emission.returned found
    exact ⟨product, congrArg Prod.fst result, cls⟩
  have own := lawful.handed product result
  rw [cls] at own
  exact own

end Compiler

end Stencil
