/-!
Bindings: names with values, in the order in which the names first appeared. Setting a name again
keeps its place; the last value counts.
-/

namespace Stencil

structure Bindings (α : Type) where
  entries : List (String × α) := []
  deriving Inhabited, Repr

namespace Bindings

variable {α : Type}

def find : List (String × α) → String → Option α
  | [], _ => none
  | (k, v) :: rest, name => if k = name then some v else find rest name

def put : List (String × α) → String → α → List (String × α)
  | [], name, value => [(name, value)]
  | (k, v) :: rest, name, value =>
    if k = name then (k, value) :: rest else (k, v) :: put rest name value

def get? (b : Bindings α) (name : String) : Option α := find b.entries name

def set (b : Bindings α) (name : String) (value : α) : Bindings α := ⟨put b.entries name value⟩

def erase (b : Bindings α) (name : String) : Bindings α :=
  ⟨b.entries.filter fun e => e.1 != name⟩

def names (b : Bindings α) : List String := b.entries.map Prod.fst

def has (b : Bindings α) (name : String) : Bool := (b.get? name).isSome

def merge (b c : Bindings α) : Bindings α :=
  c.entries.foldl (fun b (k, v) => b.set k v) b

def ofList (entries : List (String × α)) : Bindings α :=
  merge {} ⟨entries⟩

theorem find_put (entries : List (String × α)) (name other : String) (value : α) :
    find (put entries name value) other = if name = other then some value else find entries other := by
  induction entries with
  | nil => simp [put, find]
  | cons e rest ih =>
    obtain ⟨k, v⟩ := e
    by_cases hk : k = name
    · subst hk
      by_cases ho : k = other <;> simp [put, find, ho]
    · by_cases ho : k = other
      · subst ho
        simp [put, find, hk, Ne.symm hk]
      · simp [put, find, hk, ho, ih]

@[simp] theorem get?_set (b : Bindings α) (name other : String) (value : α) :
    (b.set name value).get? other = if name = other then some value else b.get? other :=
  find_put b.entries name other value

end Bindings

end Stencil
