import Mathlib.Data.List.Sort
import Mathlib.Data.String.Basic
import Stencil.Compiler
import Stencil.Proofs.Emission.Gate

/-!
The namespaces of a context as a set. However a request lists them, the context keeps them in strict
order, code point by code point, so requests for the same set are answered by one context
(`compile_blind`). Emissions go through the namespaces in that order, and report in it those that are
not found.
-/

namespace Stencil

section sorting

variable {name other : String} {names others : List String}

theorem mem_insertName : other ∈ insertName name names ↔ other = name ∨ other ∈ names := by
  induction names with
  | nil => simp [insertName]
  | cons first rest ih =>
    rw [insertName]
    split
    · next same => simp [same]
    · split
      · rw [List.mem_cons]
      · simp only [List.mem_cons, ih, or_left_comm]

theorem pairwise_insertName (increasing : names.Pairwise (· < ·)) :
    (insertName name names).Pairwise (· < ·) := by
  induction names with
  | nil => exact List.pairwise_singleton _ name
  | cons first rest ih =>
    obtain ⟨least, later⟩ := List.pairwise_cons.1 increasing
    rw [insertName]
    split
    · exact increasing
    · next differs =>
      split
      · next before =>
        refine List.pairwise_cons.2 ⟨fun other member => ?_, increasing⟩
        obtain rfl | member := List.mem_cons.1 member
        · exact before
        · exact before.trans (least other member)
      · next after =>
        refine List.pairwise_cons.2 ⟨fun other member => ?_, ih later⟩
        obtain rfl | member := mem_insertName.1 member
        · exact lt_of_le_of_ne (not_lt.1 after) (Ne.symm differs)
        · exact least other member

theorem mem_namesInOrder : name ∈ namesInOrder names ↔ name ∈ names := by
  induction names with
  | nil => exact Iff.rfl
  | cons first rest ih =>
    change name ∈ insertName first (namesInOrder rest) ↔ _
    rw [mem_insertName, ih, List.mem_cons]

theorem pairwise_namesInOrder (names : List String) : (namesInOrder names).Pairwise (· < ·) := by
  induction names with
  | nil => exact List.Pairwise.nil
  | cons first rest ih => exact pairwise_insertName ih

theorem namesInOrder_congr (same : ∀ s, s ∈ names ↔ s ∈ others) :
    namesInOrder names = namesInOrder others :=
  (pairwise_namesInOrder names).eq_of_mem_iff (pairwise_namesInOrder others) fun s => by
    rw [mem_namesInOrder, mem_namesInOrder, same]

end sorting

namespace Emission

theorem Gone.unknown {module : Nat} {loaded : List Nat} {names : List String}
    {m n : Script.Machine} {used : List Unit} {es : List Event}
    (h : Gone .usage (useOne module loaded) names m used n es) :
    ∃ missing : List String, missing.Sublist names ∧ faults es = missing.map unknownNamespace := by
  induction h with
  | nil m => exact ⟨[], .slnil, rfl⟩
  | @fault name rest m n o d used es h later ih =>
    obtain ⟨missing, kept, reported⟩ := ih
    obtain ⟨-, rfl⟩ := fits_of_run_useOne (a := ⟨"", [], [], {}⟩) h
    exact ⟨name :: missing, kept.cons_cons name, by simp [reported]⟩
  | @well name rest m n o a used es h later ih =>
    obtain ⟨missing, kept, reported⟩ := ih
    exact ⟨missing, kept.cons name, by simp [reported]⟩

structure Arranged (names : List String) (o : Options) : Prop where
  increasing : o.usings.Pairwise (· < ·)
  members : ∀ s, s ∈ o.usings ↔ s ∈ names
  /-- They are gone through in that order, and those that are not found are reported in it. -/
  taking : ∀ a b m e n, a.options = o → (emit a b).run m = (.ok e, n) →
    (trials (course a b m).taking).map Trial.item = o.usings.map .usage ∧
      ∃ missing : List String, missing.Pairwise (· < ·) ∧ missing ⊆ names ∧
        faults (course a b m).taking = missing.map unknownNamespace

theorem arranged_namesInOrder (names : List String) (kind : OutputKind) (optimize : Int) :
    Arranged names { kind, usings := namesInOrder names, optimize } where
  increasing := pairwise_namesInOrder names
  members _ := mem_namesInOrder
  taking a b m e n options h := by
    obtain ⟨carried, -⟩ := emit_course h
    obtain ⟨_, _, _, _, _, _, -, ht, -⟩ := carried.gone
    obtain ⟨_, _, used, -, -, same⟩ := ht.gone
    obtain ⟨missing, kept, reported⟩ := used.unknown
    rw [← same] at reported
    rw [options] at kept
    have gone := carried.taking_items
    rw [options] at gone
    exact ⟨gone, missing, (pairwise_namesInOrder names).sublist kept,
      fun s member => mem_namesInOrder.1 (kept.subset member), reported⟩

end Emission

namespace Context

variable (config : Config) (fresh : Nat) (r : Request)

theorem create_congr {names others : Option (List String)}
    (same : ∀ s, s ∈ names.getD config.namespaces ↔ s ∈ others.getD config.namespaces) :
    create config fresh { r with namespaces := names } =
      create config fresh { r with namespaces := others } := by
  unfold create
  rw [namesInOrder_congr same]

theorem namespaces_of_create {context : Context} (h : create config fresh r = .ok context) :
    context.namespaces = namesInOrder (r.namespaces.getD config.namespaces) := by
  unfold create at h
  cases hf : r.extra.find? ownNames.contains with
  | some name =>
    rw [hf] at h
    cases h
  | none =>
    rw [hf] at h
    dsimp only [pure, Except.pure, bind, Except.bind] at h
    cases hs : (r.references.mapM Supply.reference).mapError Refusal.reference with
    | error refusal =>
      rw [hs] at h
      cases h
    | ok references =>
      rw [hs] at h
      dsimp only at h
      split at h <;> cases h
      rfl

end Context

namespace Compiler

/-- Compilations do not see how a request lists its namespaces, or how often: only which ones. -/
theorem compile_blind (config : Config) (fresh : Nat) (r : Context.Request)
    {names others : Option (List String)}
    (same : ∀ s, s ∈ names.getD config.namespaces ↔ s ∈ others.getD config.namespaces) :
    Context.create config fresh { r with namespaces := names } =
        Context.create config fresh { r with namespaces := others } ∧
      (∀ context, Context.create config fresh { r with namespaces := names } = .ok context →
        Emission.Arranged (names.getD config.namespaces) context.options) ∧
      ∀ (c : Compiler) (w : Workshop),
        (Context.create config fresh { r with namespaces := names }).map
            (fun context => (c.compile context).run w) =
          (Context.create config fresh { r with namespaces := others }).map
            fun context => (c.compile context).run w := by
  have created := Context.create_congr config fresh r same
  refine ⟨created, fun context h => ?_, fun c w => by rw [created]⟩
  rw [Context.options, Context.namespaces_of_create config fresh _ h,
    namesInOrder_congr fun s => mem_namesInOrder]
  exact Emission.arranged_namesInOrder _ .library (-1)

/-- Namespaces in another order, and one of them twice. -/
theorem compile_blind_repeated :
    let r : Context.Request := { source := "class T: pass\n", className := some "T" }
    (∀ s, s ∈ ["b", "a", "b"] ↔ s ∈ ["a", "b"]) ∧
      (Context.create {} 0 { r with namespaces := some ["b", "a", "b"] }).toOption.map
          (fun context => context.options.usings) = some ["a", "b"] ∧
      Context.create {} 0 { r with namespaces := some ["b", "a", "b"] } =
        Context.create {} 0 { r with namespaces := some ["a", "b"] } := by
  intro r
  have same : ∀ s, s ∈ (some ["b", "a", "b"]).getD ({} : Config).namespaces ↔
      s ∈ (some ["a", "b"]).getD ({} : Config).namespaces := by simp [or_comm]
  exact ⟨same, by decide, (compile_blind {} 0 r same).1⟩

end Compiler

end Stencil
