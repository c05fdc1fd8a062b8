import Mathlib.Algebra.Group.Nat.Defs
import Mathlib.Data.List.TakeWhile
import Stencil.Script.Literal
import Stencil.Text.Quoted

/-!
Quoted text can be read from the front. What stands for a character in quoted text is read as that
character by the rules of literals, and is never mistaken for the quote; so a quoted text ends where it
says, whatever comes after it (`quoted_append_inj`, `quotedBytes_append_inj`).
-/

namespace Stencil.Text

open Script (Escaped hexValue? natInBase fixedEscape readEscape)

theorem hex_succ (width n : Nat) : hex (width + 1) n = hex width (n / 16) ++ hex 1 n := rfl

@[simp] theorem length_hex (width n : Nat) : (hex width n).length = width := by
  induction width generalizing n with
  | zero => rfl
  | succ width ih =>
    rw [hex_succ, List.length_append, ih]
    rfl

theorem hex_one_mod (n : Nat) : hex 1 n = hex 1 (n % 16) := by simp [hex]

theorem of_mem_hex {width n : Nat} {d : Char} (h : d ∈ hex width n) : ∃ k < 16, d ∈ hex 1 k := by
  induction width generalizing n with
  | zero => simp [hex] at h
  | succ width ih =>
    rw [hex_succ, List.mem_append] at h
    obtain h | h := h
    · exact ih h
    · exact ⟨n % 16, Nat.mod_lt n (by decide), hex_one_mod n ▸ h⟩

theorem hexValue?_hex_one (n : Nat) : (hex 1 n).map hexValue? = [some (n % 16)] := by
  have digits : ∀ k < 16, (hex 1 k).map hexValue? = [some k] := by decide
  rw [hex_one_mod]
  exact digits (n % 16) (Nat.mod_lt n (by decide))

theorem isSome_hexValue? {width n : Nat} {d : Char} (h : d ∈ hex width n) :
    (hexValue? d).isSome = true := by
  obtain ⟨k, -, digit⟩ := of_mem_hex h
  have value : hexValue? d ∈ (hex 1 k).map hexValue? := List.mem_map_of_mem digit
  rw [hexValue?_hex_one, List.mem_singleton] at value
  rw [value]
  rfl

theorem natInBase_hex (width n : Nat) : natInBase 16 (hex width n) = n % 16 ^ width := by
  induction width generalizing n with
  | zero => simp [hex, natInBase, Nat.mod_one]
  | succ width ih =>
    obtain ⟨d, only, value⟩ := List.map_eq_singleton_iff.1 (hexValue?_hex_one n)
    have split := Nat.mod_mul (x := n) (a := 16) (b := 16 ^ width)
    unfold natInBase at ih ⊢
    rw [hex_succ, List.foldl_append, ih, only]
    simp only [List.foldl_cons, List.foldl_nil, value]
    rw [Nat.pow_succ, Nat.mul_comm (16 ^ width), split]
    omega

theorem fixedEscape_hex {width n : Nat} (form : String) (small : n < 16 ^ width) (rest : List Char) :
    fixedEscape width form (hex width n ++ rest) = (.char (Char.ofNat n), rest) := by
  have digits : ((hex width n).takeWhile fun c => (hexValue? c).isSome) = hex width n :=
    List.takeWhile_eq_self_iff.2 fun d hd => isSome_hexValue? hd
  have front : (hex width n ++ rest).take width = hex width n :=
    List.take_left' (length_hex width n)
  have back : (hex width n ++ rest).drop width = rest := List.drop_left' (length_hex width n)
  rw [fixedEscape, front, back, digits, length_hex, if_pos rfl, natInBase_hex, Nat.mod_eq_of_lt small]

def readChar : List Char → Option (Escaped × List Char)
  | [] => none
  | '\\' :: rest => some (readEscape false rest)
  | c :: rest => some (.char c, rest)

theorem readChar_cons {c : Char} (h : c ≠ '\\') (rest : List Char) :
    readChar (c :: rest) = some (.char c, rest) := by
  rw [readChar]
  exact h

def IsQuote (q : Char) : Prop := q = '\'' ∨ q = '"'

theorem isQuote_quoteFor (hasSingle hasDouble : Bool) : IsQuote (quoteFor hasSingle hasDouble) := by
  unfold quoteFor IsQuote
  split
  · exact .inr rfl
  · exact .inl rfl

theorem toNat_lt (c : Char) : c.toNat < 16 ^ 8 := by
  have valid := c.valid
  simp only [UInt32.isValidChar, Nat.isValidChar] at valid
  simp only [Char.toNat]
  omega

theorem readChar_escape {width n : Nat} {sign : Char} {form : String} (small : n < 16 ^ width)
    (rest : List Char)
    (escape : ∀ ds, readEscape false (sign :: ds) = fixedEscape width form ds) :
    readChar ('\\' :: sign :: hex width n ++ rest) = some (.char (Char.ofNat n), rest) := by
  rw [← fixedEscape_hex form small rest, ← escape]
  rfl

section characters

variable {q : Char}

theorem escapedChar_eq (c : Char) :
    ∃ sign ∈ ['x', 'u', 'U'], ∃ width, escapedChar c = '\\' :: sign :: hex width c.toNat := by
  unfold escapedChar
  split_ifs
  · exact ⟨'x', by decide, 2, rfl⟩
  · exact ⟨'u', by decide, 4, rfl⟩
  · exact ⟨'U', by decide, 8, rfl⟩

theorem readChar_escapedChar (c : Char) (rest : List Char) :
    readChar (escapedChar c ++ rest) = some (.char c, rest) := by
  have known : Char.ofNat c.toNat = c := Char.ofNat_toNat c
  unfold escapedChar
  split_ifs with two four
  · rw [readChar_escape two rest fun _ => rfl, known]
  · rw [readChar_escape four rest fun _ => rfl, known]
  · rw [readChar_escape (toNat_lt c) rest fun _ => rfl, known]

theorem readChar_quotedChar (quote : IsQuote q) (c : Char) (rest : List Char) :
    readChar (quotedChar q c ++ rest) = some (.char c, rest) := by
  unfold quotedChar
  split_ifs with marked line back tab
  · obtain rfl | rfl := marked
    · obtain rfl | rfl := quote <;> rfl
    · rfl
  · rw [line]
    rfl
  · rw [back]
    rfl
  · rw [tab]
    rfl
  · exact readChar_cons (fun same => marked (.inr same)) rest
  · exact readChar_escapedChar c rest

theorem quotedChar_append_head (quote : IsQuote q) (c : Char) (rest : List Char) :
    (quotedChar q c ++ rest).head? ≠ some q := by
  have slash : '\\' ≠ q := by
    obtain rfl | rfl := quote <;> decide
  obtain ⟨sign, -, width, escaped⟩ := escapedChar_eq c
  unfold quotedChar
  split_ifs with marked <;> simp [slash, escaped]
  exact fun same => marked (.inl same)

theorem readChar_quotedByte (quote : IsQuote q) (b : UInt8) (rest : List Char) :
    readChar (quotedByte q b ++ rest) = some (.char (Char.ofNat b.toNat), rest) := by
  have small : b.toNat < 16 ^ 2 := b.toNat_lt
  unfold quotedByte
  dsimp only
  split_ifs
  · exact readChar_quotedChar quote _ rest
  · exact readChar_escape small rest fun _ => rfl
  · exact readChar_quotedChar quote _ rest
  · exact readChar_escape small rest fun _ => rfl

theorem quotedByte_append_head (quote : IsQuote q) (b : UInt8) (rest : List Char) :
    (quotedByte q b ++ rest).head? ≠ some q := by
  have slash : '\\' ≠ q := by
    obtain rfl | rfl := quote <;> decide
  unfold quotedByte
  dsimp only
  split_ifs
  · exact quotedChar_append_head quote _ rest
  · simp [slash]
  · exact quotedChar_append_head quote _ rest
  · simp [slash]

theorem flatMap_append_inj {α : Type} {shown : α → List Char} {value : α → Char}
    (reads : ∀ a rest, readChar (shown a ++ rest) = some (.char (value a), rest))
    (opens : ∀ a rest, (shown a ++ rest).head? ≠ some q)
    (distinct : ∀ a b, value a = value b → a = b) {as bs : List α} {r s : List Char}
    (h : as.flatMap shown ++ q :: r = bs.flatMap shown ++ q :: s) : as = bs ∧ r = s := by
  induction as generalizing bs with
  | nil =>
    cases bs with
    | nil => exact ⟨rfl, (List.cons.inj h).2⟩
    | cons b bs =>
      rw [List.flatMap_cons, List.append_assoc] at h
      exact absurd (congrArg List.head? h).symm (opens b _)
  | cons a as ih =>
    rw [List.flatMap_cons, List.append_assoc] at h
    cases bs with
    | nil => exact absurd (congrArg List.head? h) (opens a _)
    | cons b bs =>
      rw [List.flatMap_cons, List.append_assoc] at h
      have first := congrArg readChar h
      rw [reads, reads] at first
      obtain ⟨same, later⟩ := Prod.mk.inj (Option.some.inj first)
      obtain ⟨rest, after⟩ := ih later
      rw [distinct a b (Escaped.char.inj same), rest]
      exact ⟨rfl, after⟩

end characters

theorem quoted_append_inj {s t : String} {x y : List Char}
    (h : (quoted s).toList ++ x = (quoted t).toList ++ y) : s = t ∧ x = y := by
  unfold quoted at h
  simp only [String.toList_ofList, List.cons_append, List.append_assoc, List.cons.injEq] at h
  obtain ⟨same, h⟩ := h
  rw [← same] at h
  have quote := isQuote_quoteFor (s.toList.contains '\'') (s.toList.contains '"')
  obtain ⟨characters, after⟩ := flatMap_append_inj (readChar_quotedChar quote)
    (quotedChar_append_head quote) (fun _ _ => id) h
  exact ⟨String.toList_inj.1 characters, after⟩

theorem quotedBytes_append_inj {as bs : List UInt8} {x y : List Char}
    (h : (quotedBytes as).toList ++ x = (quotedBytes bs).toList ++ y) : as = bs ∧ x = y := by
  unfold quotedBytes at h
  simp only [String.toList_ofList, List.cons_append, List.append_assoc, List.cons.injEq, true_and] at h
  obtain ⟨same, h⟩ := h
  rw [← same] at h
  have quote := isQuote_quoteFor (as.contains 39) (as.contains 34)
  have distinct (a b : UInt8) (equal : Char.ofNat a.toNat = Char.ofNat b.toNat) : a = b := by
    have number : ∀ n < 256, (Char.ofNat n).toNat = n := by decide +kernel
    have numbers := congrArg Char.toNat equal
    rw [number _ a.toNat_lt, number _ b.toNat_lt] at numbers
    exact UInt8.toNat_inj.1 numbers
  exact flatMap_append_inj (readChar_quotedByte quote) (quotedByte_append_head quote) distinct h

end Stencil.Text
