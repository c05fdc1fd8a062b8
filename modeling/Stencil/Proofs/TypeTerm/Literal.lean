import Mathlib
import Stencil.Datum
import Stencil.Proofs.Text.Legible
import Stencil.Proofs.Text.Quoted

/-!
Values of literal types. Their quoted texts are told apart inside a list: text begins with a quote, bytes
with their sign, and all other values are words.
-/

namespace Stencil.Datum

def isLiteral : Datum → Bool
  | null | bool _ | int _ | text _ | bytes _ => true
  | _ => false

def inWord (c : Char) : Bool := c.isAlphanum || c == '-'

inductive Form where
  | word
  | text
  | bytes
  deriving DecidableEq

def form : Datum → Form
  | text _ => .text
  | bytes _ => .bytes
  | _ => .word

def announced (c : Char) : Option Form :=
  if c = 'b' then some .bytes
  else if inWord c then some .word
  else if c = '\'' ∨ c = '"' then some .text
  else none

theorem isDigit_of_mem_repr {n : Nat} {c : Char} (h : c ∈ n.repr.toList) : c.isDigit = true := by
  rw [Nat.toList_repr] at h
  exact Nat.isDigit_of_mem_toDigits (by decide) (by decide) h

theorem quoted_int (i : Int) : ∃ c rest, (int i).quoted.toList = c :: rest ∧
    (c.isDigit = true ∨ c = '-') ∧ ∀ d ∈ rest, d.isDigit = true := by
  rw [quoted, Int.toString_eq_repr, Int.repr_eq_if]
  split
  · obtain ⟨c, rest, shape⟩ := List.exists_cons_of_ne_nil (l := i.toNat.repr.toList)
      (by rw [Nat.toList_repr]; exact Nat.toDigits_ne_nil)
    have digits {d : Char} (hd : d ∈ c :: rest) : d.isDigit = true :=
      isDigit_of_mem_repr (shape ▸ hd)
    exact ⟨c, rest, shape, .inl (digits List.mem_cons_self),
      fun d hd => digits (List.mem_cons_of_mem c hd)⟩
  · exact ⟨'-', _, by rw [String.toList_append]; rfl, .inr rfl, fun d => isDigit_of_mem_repr⟩

theorem inWord_of_isDigit {c : Char} (h : c.isDigit = true) : inWord c = true := by
  simp [inWord, Char.isAlphanum, h]

theorem announced_of_number {c : Char} (h : c.isDigit = true ∨ c = '-') : announced c = some .word := by
  obtain h | rfl := h
  · have differ : c ≠ 'b' := by
      rintro rfl
      cases h
    rw [announced, if_neg differ, if_pos (inWord_of_isDigit h)]
  · rfl

theorem announced_of_isQuote {c : Char} (h : Text.IsQuote c) : announced c = some .text := by
  obtain rfl | rfl := h <;> rfl

theorem announced_quoted {d : Datum} (literal : d.isLiteral = true) :
    ∃ c rest, d.quoted.toList = c :: rest ∧ announced c = some d.form := by
  cases d with
  | null => exact ⟨'N', _, rfl, rfl⟩
  | bool b => cases b <;> exact ⟨_, _, rfl, rfl⟩
  | int i =>
    obtain ⟨c, rest, shape, first, -⟩ := quoted_int i
    exact ⟨c, rest, shape, announced_of_number first⟩
  | text s =>
    exact ⟨_, _, String.toList_ofList, announced_of_isQuote (Text.isQuote_quoteFor _ _)⟩
  | bytes bs => exact ⟨'b', _, String.toList_ofList, rfl⟩
  | float _ | tuple _ | list _ | table _ | object _ _ => cases literal

theorem inWord_of_mem_quoted {d : Datum} (literal : d.isLiteral = true) (word : d.form = .word)
    {c : Char} (h : c ∈ d.quoted.toList) : inWord c = true := by
  cases d with
  | null => exact List.all_eq_true.1 (by decide : null.quoted.toList.all inWord) c h
  | bool b =>
    have letters : (bool b).quoted.toList.all inWord := by
      cases b <;> decide
    exact List.all_eq_true.1 letters c h
  | int i =>
    obtain ⟨first, rest, shape, sign, digits⟩ := quoted_int i
    rw [shape, List.mem_cons] at h
    obtain rfl | h := h
    · obtain digit | rfl := sign
      · exact inWord_of_isDigit digit
      · rfl
    · exact inWord_of_isDigit (digits c h)
  | text _ | bytes _ => cases word
  | float _ | tuple _ | list _ | table _ | object _ _ => cases literal

theorem quoted_int_ne {d : Datum} (named : d = null ∨ ∃ b, d = bool b) (i : Int) :
    d.quoted ≠ (int i).quoted := by
  obtain ⟨c, rest, shape, first, -⟩ := quoted_int i
  intro same
  have begins := congrArg String.toList same
  rw [shape] at begins
  have differ (c : Char) (h : c.isDigit = true ∨ c = '-') : c ≠ 'N' ∧ c ≠ 'T' ∧ c ≠ 'F' := by
    refine ⟨?_, ?_, ?_⟩ <;> (rintro rfl; exact absurd h (by decide))
  obtain ⟨none, true, false⟩ := differ c first
  obtain rfl | ⟨b, rfl⟩ := named
  · exact none (List.cons.inj begins).1.symm
  · cases b
    · exact false (List.cons.inj begins).1.symm
    · exact true (List.cons.inj begins).1.symm

theorem quoted_word_inj {d e : Datum} (hd : d.isLiteral = true) (he : e.isLiteral = true)
    (word : d.form = .word) (word' : e.form = .word) (h : d.quoted = e.quoted) : d = e := by
  cases d with
  | null =>
    cases e with
    | null => rfl
    | bool b => cases b <;> exact absurd h (by decide)
    | int i => exact absurd h (quoted_int_ne (.inl rfl) i)
    | text _ | bytes _ => cases word'
    | float _ | tuple _ | list _ | table _ | object _ _ => cases he
  | bool a =>
    cases e with
    | null => cases a <;> exact absurd h (by decide)
    | bool b => cases a <;> cases b <;> first | rfl | exact absurd h (by decide)
    | int i => exact absurd h (quoted_int_ne (.inr ⟨a, rfl⟩) i)
    | text _ | bytes _ => cases word'
    | float _ | tuple _ | list _ | table _ | object _ _ => cases he
  | int i =>
    cases e with
    | null => exact absurd h.symm (quoted_int_ne (.inl rfl) i)
    | bool b => exact absurd h.symm (quoted_int_ne (.inr ⟨b, rfl⟩) i)
    | int j =>
      rw [quoted, quoted, Int.toString_eq_repr, Int.toString_eq_repr, Int.repr_inj] at h
      rw [h]
    | text _ | bytes _ => cases word'
    | float _ | tuple _ | list _ | table _ | object _ _ => cases he
  | text _ | bytes _ => cases word
  | float _ | tuple _ | list _ | table _ | object _ _ => cases hd

def Quotes (x : List Char) (d : Datum) : Prop := d.isLiteral = true ∧ d.quoted.toList = x

theorem forall₂_quoted {Q : List Char → Datum → Prop} {ds : List Datum}
    (h : ∀ d ∈ ds, Q d.quoted.toList d) :
    List.Forall₂ Q ((ds.map quoted).map String.toList) ds := by
  induction ds with
  | nil => exact .nil
  | cons d ds ih =>
    exact .cons (h d List.mem_cons_self) (ih fun e he => h e (List.mem_cons_of_mem d he))

theorem Quotes.head_ne {x : List Char} {d : Datum} (h : Quotes x d) (z : List Char) :
    (x ++ z).head? ≠ some ']' := by
  obtain ⟨literal, rfl⟩ := h
  obtain ⟨c, rest, shape, form⟩ := announced_quoted literal
  rw [shape]
  rintro ⟨⟩
  cases form

theorem legible_quoted {d : Datum} (literal : d.isLiteral = true) :
    Text.Legible [',', ']'] Quotes d.quoted.toList d := by
  rintro y e r s ⟨literal', rfl⟩ hr hs h
  have forms : d.form = e.form := by
    obtain ⟨c, rest, shape, form⟩ := announced_quoted literal
    obtain ⟨c', rest', shape', form'⟩ := announced_quoted literal'
    rw [shape, shape'] at h
    rw [(List.cons.inj h).1, form'] at form
    exact (Option.some.inj form).symm
  cases form : d.form with
  | word =>
    have inside {d : Datum} (literal : d.isLiteral = true) (word : d.form = .word) :
        ∀ c ∈ d.quoted.toList, inWord c = true := fun c => inWord_of_mem_quoted literal word
    obtain ⟨same, after⟩ := Text.word_append_inj (by simp [inWord]) (inside literal form)
      (inside literal' (forms ▸ form)) hr hs h
    exact ⟨quoted_word_inj literal literal' form (forms ▸ form) (String.toList_inj.1 same), after⟩
  | text =>
    cases d <;> cases form
    cases e <;> cases forms
    obtain ⟨rfl, after⟩ := Text.quoted_append_inj h
    exact ⟨rfl, after⟩
  | bytes =>
    cases d <;> cases form
    cases e <;> cases forms
    obtain ⟨rfl, after⟩ := Text.quotedBytes_append_inj h
    exact ⟨rfl, after⟩

end Stencil.Datum
