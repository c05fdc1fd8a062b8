/-!
Compile scopes: the id of the compilation in progress. Entering a block sets the id and leaves a
token behind; the token gives back what was there before, once.
-/

namespace Stencil.Log

structure Token where
  previous : Option String
  used : Bool
  deriving DecidableEq, Repr

structure Scope where
  current : Option String := none
  tokens : List Token := []
  deriving DecidableEq, Repr

def nonempty : Option String → Option String
  | some "" => none
  | id => id

namespace Scope

def set (s : Scope) (id : Option String) : Scope :=
  { s with current := nonempty id }

/-- Sets the id and returns the number of the token that restores the present one. -/
def enter (s : Scope) (id : Option String) : Scope × Nat :=
  (⟨nonempty id, s.tokens ++ [⟨s.current, false⟩]⟩, s.tokens.length)

def exit? (s : Scope) (token : Nat) : Option Scope :=
  match s.tokens[token]? with
  | some ⟨previous, false⟩ => some ⟨previous, s.tokens.set token ⟨previous, true⟩⟩
  | _ => none

theorem exit?_enter (s : Scope) (id : Option String) :
    ∃ t, (s.enter id).1.exit? (s.enter id).2 = some t ∧ t.current = s.current := by
  simp [enter, exit?]

end Scope

structure Block where
  id : Option String
  token : Option Nat := none
  deriving DecidableEq, Repr

namespace Block

def enter (b : Block) (s : Scope) : Block × Scope :=
  let (s, token) := s.enter b.id
  ({ b with token := some token }, s)

def exit? (b : Block) (s : Scope) : Option Scope :=
  match b.token with
  | some token => s.exit? token
  | none => some s

end Block

end Stencil.Log
