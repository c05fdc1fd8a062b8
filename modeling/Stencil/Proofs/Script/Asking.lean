import Stencil.Proofs.Script.Intact
import Stencil.Script.Interpreter

/-!
Questions that no code of others has a part in. A module answers for a name by itself if it has
something under that name, or no function that is asked instead; the items of a list are what stands
there; the text of an error of the library is made of its arguments, if these are plain data.
-/

namespace Stencil.Script

/-- A module answers for a name by itself: it has something under the name, or no function that is
asked instead. -/
def Machine.answers (m : Machine) (module : Nat) (name : String) : Bool :=
  match m.heap[module]? with
  | some (.module attrs) => attrs.has name || !attrs.has "__getattr__"
  | _ => false

theorem Machine.of_answers {m : Machine} {module : Nat} {name : String}
    (h : m.answers module name = true) :
    ∃ attrs, m.heap[module]? = some (.module attrs) ∧
      (attrs.get? name ≠ none ∨ attrs.get? "__getattr__" = none) := by
  unfold answers at h
  split at h
  · next attrs found =>
    exact ⟨attrs, found, by simpa [Bindings.has, Option.isSome_iff_ne_none] using h⟩
  · cases h

def Value.isScalar : Value → Bool
  | none | ellipsis | notImplemented | bool _ | int _ | float _ | text _ | bytes _ => true
  | _ => false

def Machine.isPlainError (m : Machine) (error : Nat) : Bool :=
  match m.heap[error]? with
  | some (.error (.library _) arguments _ _) => arguments.all Value.isScalar
  | _ => false

namespace Run

variable {α : Type} {before m n : Machine} {module ref : Nat} {name : String}

theorem run_object_of {o : Object} (h : m.heap[ref]? = some o) : (object ref).run m = (.ok o, m) := by
  rw [run_object, h]
  rfl

theorem Spares.handling {code : Run α} {handler : Nat → Run α} (first : Spares before code m)
    (h : ∀ error o, Spares before (handler error) o) : Spares before (handling code handler) m := by
  refine first.tryCatch fun s o _ => ?_
  cases s with
  | raised error placed => exact h error o
  | exhausted => exact .of_still (still_throw _)

theorem Spares.intact {code : Run α} {result : Except Stop α} (h : Spares m code m)
    (ran : code.run m = (result, n)) : Intact m n := by
  have kept := h (.refl m)
  rwa [ran] at kept

theorem Spares.attributes {code : Run α} {result : Except Stop α} {attrs : Bindings Value}
    (h : Spares m code m) (ran : code.run m = (result, n))
    (found : m.heap[module]? = some (.module attrs)) : n.heap[module]? = some (.module attrs) :=
  (h.intact ran).attributes module attrs found

section members

theorem run_member?_module (d : Deeper) {attrs : Bindings Value}
    (found : m.heap[module]? = some (.module attrs)) (other : name ≠ "__class__") :
    (member? d (.object module) name).run m = (match attrs.get? name with
      | some v => pure (some v)
      | none =>
        if name = "__dict__" then some <$> new (.attributesOf module)
        else match attrs.get? "__getattr__" with
          | some f => some <$> d.call f [.text name] []
          | none => pure none).run m := by
  unfold member?
  split
  case h_2 => contradiction
  case h_9 =>
    next same =>
    cases same
    next asked _ _ _ =>
    rw [run_bind, run_object_of found]
    dsimp only
    cases attrs.get? asked with
    | some v => rfl
    | none =>
      dsimp only
      split
      · rfl
      · next others =>
        rw [if_neg others]
        cases attrs.get? "__getattr__" <;> rfl
  all_goals first | contradiction | (next different => exact (different module rfl).elim)

theorem spares_member? (d : Deeper) (h : m.answers module name = true) :
    Spares before (member? d (.object module) name) m := by
  obtain ⟨attrs, found, answers⟩ := Machine.of_answers h
  by_cases hc : name = "__class__"
  · subst hc
    exact .of_still ((still_classOf (.object module)).bind fun _ => still_pure _)
  · intro intact
    rw [run_member?_module d found hc]
    revert intact
    change Spares before _ m
    split
    · exact .of_still (still_pure _)
    · next missing =>
      rw [answers.resolve_left (fun there => there missing)]
      split
      · exact ((sparing_alloc _).bind fun _ => .pure _).bind (fun _ => .pure _) before m
      · exact .of_still (still_pure _)

theorem sparing_noAttribute (v : Value) (name : String) : Sparing (noAttribute v name : Run α) :=
  sparing_raiseKind "AttributeError" v fun kind => "'" ++ kind ++ "' object has no attribute '" ++ name ++ "'"

theorem sparing_missingMember (ref : Nat) (name : String) :
    Sparing (missingMember (.object ref) name : Run α) := by
  refine Sparing.bind (.of_still fun _ => still_object ref) fun o => ?_
  cases o with
  | module attrs =>
    dsimp only
    split <;> exact sparing_raiseOf _ _
  | method self f =>
    dsimp only
    split <;> exact sparing_noAttribute _ _
  | _ => exact sparing_noAttribute _ _

theorem spares_getMember (d : Deeper) (h : m.answers module name = true) :
    Spares before (getMember d (.object module) name) m := by
  refine (spares_member? d h).bind fun found o _ => ?_
  cases found with
  | some v => exact .of_still (still_pure v)
  | none => exact sparing_missingMember module name before o

theorem spares_lookMember (d : Deeper) (h : m.answers module name = true) :
    Spares before (lookMember d (.object module) name) m := by
  refine (spares_member? d h).handling fun error o => .of_still ?_
  refine (still_object error).bind fun object => ?_
  cases object with
  | error c arguments attrs trace =>
    refine (still_derives c _).bind fun missing => ?_
    cases missing
    · exact still_throw _
    · exact still_pure _
  | _ => exact still_throw _

end members

section items

theorem still_drain (d : Deeper) (fuel ref index : Nat) (taken : List Value) :
    (drain d fuel (.list ref index) taken).Still m := by
  induction fuel generalizing index taken with
  | zero => exact still_throw _
  | succ fuel ih =>
    rw [drain, advance, bind_assoc]
    refine (still_object ref).bind fun o => ?_
    cases o with
    | list items =>
      dsimp only
      split
      · exact ih _ _
      · exact still_pure _
    | _ => exact still_pure _

theorem still_itemsOf (d : Deeper) {items : List Value} (h : m.heap[ref]? = some (.list items)) :
    (itemsOf d (.object ref)).Still m := by
  have begun : (start d (.object ref)).run m = (.ok (.list ref 0), m) := by
    rw [start, run_bind, run_object_of h]
    rfl
  unfold itemsOf
  dsimp only
  rw [Still, run_bind, begun]
  exact (still_drain d stepLimit ref 0 []).bind fun _ => still_pure _

end items

section texts

open Interpreter

variable {v : Value}

theorem sparing_tooDeep : Sparing (tooDeep : Run α) := sparing_raiseOf _ _

theorem still_quotedStep (d : Deeper) (h : v.isScalar = true) : (quotedStep d v).Still m := by
  cases v <;> first | (cases h; done) | exact still_pure _

theorem still_plainStep (d : Deeper) (h : v.isScalar = true) : (plainStep d v).Still m := by
  cases v <;> first | (cases h; done) | exact still_pure _

theorem sparing_quoted (depth : Nat) (h : v.isScalar = true) : Sparing ((deep depth).quoted v) := by
  cases depth with
  | zero => exact sparing_tooDeep
  | succ depth => exact .of_still fun _ => still_quotedStep _ h

theorem sparing_quotedAll (depth : Nat) {vs : List Value} (h : vs.all Value.isScalar = true) :
    Sparing (quotedAll (deep depth) vs) := by
  induction vs with
  | nil => exact .pure _
  | cons v rest ih =>
    rw [List.all_cons, Bool.and_eq_true] at h
    exact (sparing_quoted depth h.1).bind fun _ => (ih h.2).bind fun _ => .pure _

theorem sparing_quoted_tuple (depth : Nat) {vs : List Value} (h : vs.all Value.isScalar = true) :
    Sparing ((deep depth).quoted (.tuple vs)) := by
  cases depth with
  | zero => exact sparing_tooDeep
  | succ depth => exact (sparing_quotedAll depth h).bind fun _ => .pure _

theorem construct_text (d : Deeper) (v : Value) :
    Construct.construct d (Library.builtin "str") [v] [] = do return .text (← plainStep d v) := by
  have name : Library.builtin "str" = "builtins.str" := by decide +kernel
  have named : Construct.unnamed.contains (Library.split "builtins.str").2 = false := by
    decide +kernel
  rw [name]
  unfold Construct.construct
  dsimp only
  rw [named]
  rfl

theorem sparing_textResult (name : String) (v : Value) : Sparing (textResult name v) := by
  unfold textResult
  split
  · exact .pure _
  · exact sparing_raiseKind "TypeError" _ fun kind => name ++ " returned non-string (type " ++ kind ++ ")"

theorem sparing_text (depth : Nat) (h : v.isScalar = true) :
    Sparing ((deep depth).call (.cls (.builtin "str")) [v] [] >>= textResult "__str__") := by
  cases depth with
  | zero => exact sparing_tooDeep.bind (sparing_textResult _)
  | succ depth =>
    have called : (deep (depth + 1)).call (.cls (.builtin "str")) [v] [] =
        plainStep (deep depth) v >>= fun s => pure (.text s) := construct_text (deep depth) v
    rw [called, bind_assoc]
    exact (Sparing.of_still fun _ => still_plainStep _ h).bind fun _ => .pure _

theorem sparing_errorText (depth : Nat) (c : ClassRef) {arguments : List Value}
    {plain : Value → Run String} (h : arguments.all Value.isScalar = true)
    (shown : ∀ v : Value, v.isScalar = true → Sparing (plain v)) :
    Sparing (errorText (deep depth) c arguments plain) := by
  have asked (c base : ClassRef) : Sparing (derives c base) := .of_still fun _ => still_derives c base
  unfold errorText
  split
  · exact .pure _
  · simp only [List.all_cons, List.all_nil, Bool.and_true] at h
    refine (asked c _).bind fun key => ?_
    cases key
    · exact shown _ h
    · exact sparing_quoted depth h
  · next code reason rest =>
    have all := h
    simp only [List.all_cons, Bool.and_eq_true] at h
    obtain ⟨hc, hr, h⟩ := h
    refine (asked c _).bind fun os => ?_
    split
    · refine (shown code hc).bind fun _ => (shown reason hr).bind fun _ => ?_
      dsimp only
      split
      · exact .pure _
      · exact .pure _
      · simp only [List.all_cons, Bool.and_eq_true] at h
        exact (sparing_quoted depth h.1).bind fun _ => .pure _
      · simp only [List.all_cons, Bool.and_eq_true] at h
        exact (sparing_quoted depth h.1).bind fun _ => .pure _
      · simp only [List.all_cons, Bool.and_eq_true] at h
        exact (sparing_quoted depth h.1).bind fun _ => (sparing_quoted depth h.2.2.1).bind fun _ => .pure _
    · exact sparing_quoted_tuple depth all

theorem findAlong_library (name : String) (classes : List String) :
    ∃ found, (findAlong name (classes.map .library)).run m = (.ok found, m) ∧
      ∀ c ∈ found.map Prod.fst, ∃ owner, c = .library owner := by
  induction classes with
  | nil => exact ⟨none, rfl, by simp⟩
  | cons owner rest ih =>
    rw [List.map_cons, findAlong, ownAttribute]
    cases (Library.methods owner).contains name with
    | true => exact ⟨some (.library owner, .routine (owner ++ "." ++ name)), rfl, by simp⟩
    | false => exact ih

theorem run_definedMethod?_library {c : String} {arguments : List Value} {attrs : Bindings Value}
    {trace : List Mark} (name : String)
    (h : m.heap[ref]? = some (.error (.library c) arguments attrs trace)) :
    (definedMethod? (.object ref) name).run m = (.ok none, m) := by
  obtain ⟨found, ran, library⟩ := findAlong_library (m := m) name (Library.order c)
  have inherited : (inheritedAttribute (.library c) name).run m = (.ok found, m) := ran
  rw [definedMethod?, run_bind, run_object_of h]
  dsimp only
  rw [run_bind, inherited]
  rcases found with _ | ⟨owner, v⟩
  · rfl
  · obtain ⟨_, rfl⟩ := library owner (by simp)
    rfl

theorem spares_plainStep (depth : Nat) {error : Nat} (h : m.isPlainError error = true) :
    Spares before (plainStep (deep depth) (.object error)) m := by
  unfold Machine.isPlainError at h
  split at h
  · next c arguments attrs trace found =>
    unfold plainStep
    dsimp only
    refine Spares.bind (.of_still (still_object error)) fun o n ran => ?_
    rw [run_object_of found] at ran
    cases ran
    dsimp only
    refine Spares.bind (.of_still ?_) fun method n ran => ?_
    · rw [Still, run_definedMethod?_library "__str__" found]
    · rw [run_definedMethod?_library "__str__" found] at ran
      cases ran
      refine (sparing_errorText depth _ h fun v scalar => ?_).bind (fun text => ?_) before m
      · cases v with
        | text s => exact .pure s
        | _ => exact sparing_text depth scalar
      · split <;> exact .pure _
  · cases h

theorem spares_laidOut (depth : Nat) {error : Nat} (h : m.isPlainError error = true) :
    Spares before (Basic.laidOut (deep depth) (.object error) "") m := by
  have found : ∃ c arguments attrs trace,
      m.heap[error]? = some (.error (.library c) arguments attrs trace) := by
    unfold Machine.isPlainError at h
    split at h
    · exact ⟨_, _, _, _, ‹_›⟩
    · cases h
  obtain ⟨c, arguments, attrs, trace, found⟩ := found
  have asked := run_definedMethod?_library "__format__" found
  refine Spares.bind (.of_still (by rw [Still, asked])) fun method o ran => ?_
  rw [asked] at ran
  cases ran
  exact spares_plainStep depth h

end texts

end Run

end Stencil.Script
