import Stencil.Json.Read
import Stencil.Json.Text
import Stencil.Proofs.Text.Quoted

/-!
Quoted strings in JSON text. What stands for a character is printable ASCII, however far the character
is from it, and is read as that character: one unit by its four digits, two units as the pair that they
are. So a quoted string is read back from the front, whatever comes after it (`stringBody_escaped`).
-/

namespace Stencil.Json

open Text (hex hex_succ hex_one_mod of_mem_hex)

def IsPrintable (c : Char) : Prop := 0x20 ≤ c.toNat ∧ c.toNat < 0x7F

instance (c : Char) : Decidable (IsPrintable c) := inferInstanceAs (Decidable (_ ∧ _))

theorem isPrintable_of_all {cs : List Char} (h : cs.all (fun c => decide (IsPrintable c)) = true) :
    ∀ c ∈ cs, IsPrintable c := fun c member => of_decide_eq_true (List.all_eq_true.1 h c member)

theorem hexValue?_hex_one (n : Nat) : (hex 1 n).map hexValue? = [some (n % 16)] := by
  have digits : ∀ k < 16, (hex 1 k).map hexValue? = [some k] := by decide
  rw [hex_one_mod]
  exact digits (n % 16) (Nat.mod_lt n (by decide))

theorem isPrintable_hex {width n : Nat} {d : Char} (h : d ∈ hex width n) : IsPrintable d := by
  have digits : ∀ k < 16, (hex 1 k).all (fun d => decide (IsPrintable d)) = true := by decide
  obtain ⟨k, small, digit⟩ := of_mem_hex h
  exact isPrintable_of_all (digits k small) d digit

theorem unit?_hex {n : Nat} (small : n < 0x10000) (rest : List Char) :
    unit? (hex 4 n ++ rest) = some (n, rest) := by
  obtain ⟨a, first, ha⟩ := List.map_eq_singleton_iff.1 (hexValue?_hex_one (n / 16 / 16 / 16))
  obtain ⟨b, second, hb⟩ := List.map_eq_singleton_iff.1 (hexValue?_hex_one (n / 16 / 16))
  obtain ⟨c, third, hc⟩ := List.map_eq_singleton_iff.1 (hexValue?_hex_one (n / 16))
  obtain ⟨d, fourth, hd⟩ := List.map_eq_singleton_iff.1 (hexValue?_hex_one n)
  have digits : hex 4 n = [a, b, c, d] := by
    rw [hex_succ, hex_succ, hex_succ, first, second, third, fourth]
    rfl
  rw [digits, List.cons_append, List.cons_append, List.cons_append, List.cons_append, List.nil_append,
    unit?, ha, hb, hc, hd]
  simp only [Option.bind_eq_bind, Option.bind_some, Option.some.injEq, Prod.mk.injEq, and_true]
  omega

theorem valid_toNat (c : Char) :
    c.toNat < 0xD800 ∨ 0xDFFF < c.toNat ∧ c.toNat < 0x110000 := c.valid

theorem escapeChar_cases (c : Char) :
    (∃ mark, escapeChar c = ['\\', mark] ∧ simpleEscape? mark = some c ∧ mark ≠ 'u' ∧
        IsPrintable mark) ∨
      (escapeChar c = [c] ∧ IsPrintable c ∧ c ≠ '"' ∧ c ≠ '\\') ∨
      (escapeChar c = unitEscape c.toNat ∧ c.toNat < 0x10000) ∨
      ∃ m, m < 0x100000 ∧ c.toNat = 0x10000 + m ∧
        escapeChar c = unitEscape (0xD800 + m / 0x400) ++ unitEscape (0xDC00 + m % 0x400) := by
  have short {mark : Char} {code : Nat} (value : c.toNat = code)
      (escape : simpleEscape? mark = some (Char.ofNat code)) (differ : mark ≠ 'u')
      (shown : IsPrintable mark) :
      ∃ m, ['\\', mark] = ['\\', m] ∧ simpleEscape? m = some c ∧ m ≠ 'u' ∧ IsPrintable m := by
    rw [← value, Char.ofNat_toNat] at escape
    exact ⟨mark, rfl, escape, differ, shown⟩
  rw [escapeChar]
  dsimp only
  by_cases quote : c = '"'
  · rw [if_pos quote]
    exact .inl (short (congrArg Char.toNat quote) rfl (by decide) (by decide))
  rw [if_neg quote]
  by_cases slash : c = '\\'
  · rw [if_pos slash]
    exact .inl (short (congrArg Char.toNat slash) rfl (by decide) (by decide))
  rw [if_neg slash]
  by_cases line : c.toNat = 0x0A
  · rw [if_pos line]
    exact .inl (short line rfl (by decide) (by decide))
  rw [if_neg line]
  by_cases back : c.toNat = 0x0D
  · rw [if_pos back]
    exact .inl (short back rfl (by decide) (by decide))
  rw [if_neg back]
  by_cases tab : c.toNat = 0x09
  · rw [if_pos tab]
    exact .inl (short tab rfl (by decide) (by decide))
  rw [if_neg tab]
  by_cases feed : c.toNat = 0x0C
  · rw [if_pos feed]
    exact .inl (short feed rfl (by decide) (by decide))
  rw [if_neg feed]
  by_cases step : c.toNat = 0x08
  · rw [if_pos step]
    exact .inl (short step rfl (by decide) (by decide))
  rw [if_neg step]
  by_cases shown : 0x20 ≤ c.toNat ∧ c.toNat < 0x7F
  · rw [if_pos shown]
    exact .inr (.inl ⟨rfl, shown, quote, slash⟩)
  rw [if_neg shown]
  by_cases unit : c.toNat < 0x10000
  · rw [if_pos unit]
    exact .inr (.inr (.inl ⟨rfl, unit⟩))
  rw [if_neg unit]
  have valid := valid_toNat c
  exact .inr (.inr (.inr ⟨c.toNat - 0x10000, by omega, by omega, rfl⟩))

theorem isPrintable_unitEscape {n : Nat} {d : Char} (h : d ∈ unitEscape n) : IsPrintable d := by
  obtain rfl | rfl | h := by simpa only [unitEscape, List.mem_cons] using h
  · decide
  · decide
  · exact isPrintable_hex h

theorem isPrintable_escapeChar {c d : Char} (h : d ∈ escapeChar c) : IsPrintable d := by
  obtain ⟨mark, same, -, -, shown⟩ | ⟨same, shown, -, -⟩ | ⟨same, -⟩ | ⟨m, -, -, same⟩ :=
    escapeChar_cases c <;> rw [same] at h
  · obtain rfl | rfl := by simpa only [List.mem_cons, List.not_mem_nil, or_false] using h
    · decide
    · exact shown
  · rwa [List.mem_singleton.1 h]
  · exact isPrintable_unitEscape h
  · exact (List.mem_append.1 h).elim isPrintable_unitEscape isPrintable_unitEscape

theorem escapeChar_ne_nil (c : Char) : escapeChar c ≠ [] := by
  obtain ⟨mark, same, -⟩ | ⟨same, -⟩ | ⟨same, -⟩ | ⟨m, -, -, same⟩ := escapeChar_cases c <;>
    simp [same, unitEscape]

section reading

variable {fuel n : Nat} {start rest after cs : List Char}

theorem stringBody_unit (small : n < 0x10000) (whole : ¬(0xD800 ≤ n ∧ n < 0xDC00))
    (h : stringBody start fuel rest = .ok (cs, after)) :
    stringBody start (fuel + 1) (unitEscape n ++ rest) = .ok (Char.ofNat n :: cs, after) := by
  rw [unitEscape, List.cons_append, List.cons_append, stringBody, unit?_hex small]
  dsimp only
  rw [if_neg whole]
  simp only [Option.getD_none, h]
  rfl

theorem stringBody_pair {m : Nat} (small : m < 0x100000)
    (h : stringBody start fuel rest = .ok (cs, after)) :
    stringBody start (fuel + 1)
        (unitEscape (0xD800 + m / 0x400) ++ (unitEscape (0xDC00 + m % 0x400) ++ rest)) =
      .ok (Char.ofNat (0x10000 + m) :: cs, after) := by
  have high : 0xD800 ≤ 0xD800 + m / 0x400 ∧ 0xD800 + m / 0x400 < 0xDC00 := by omega
  have low : 0xDC00 ≤ 0xDC00 + m % 0x400 ∧ 0xDC00 + m % 0x400 < 0xE000 := by omega
  have whole : 0x10000 + (0xD800 + m / 0x400 - 0xD800) * 0x400 + (0xDC00 + m % 0x400 - 0xDC00) =
      0x10000 + m := by omega
  rw [unitEscape, unitEscape, List.cons_append, List.cons_append, stringBody, unit?_hex (by omega)]
  dsimp only [List.cons_append]
  rw [if_pos high]
  simp only [unit?_hex (show 0xDC00 + m % 0x400 < 0x10000 by omega), if_pos low, whole,
    Option.getD_some, h]
  rfl

theorem stringBody_escapeChar (c : Char) (h : stringBody start fuel rest = .ok (cs, after)) :
    stringBody start (fuel + 1) (escapeChar c ++ rest) = .ok (c :: cs, after) := by
  have known : Char.ofNat c.toNat = c := Char.ofNat_toNat c
  obtain ⟨mark, same, escape, differ, -⟩ | ⟨same, shown, quote, slash⟩ | ⟨same, small⟩ |
    ⟨m, small, value, same⟩ := escapeChar_cases c <;> rw [same]
  · rw [List.cons_append, List.cons_append, List.nil_append, stringBody]
    · rw [escape, h]
      rfl
    · exact differ
  · rw [List.singleton_append, stringBody]
    · rw [if_neg (Nat.not_lt.2 shown.1), h]
      rfl
    · exact quote
    · exact fun alone => absurd alone slash
    · exact fun _ alone => absurd alone slash
    · exact fun _ _ alone => absurd alone slash
  · have valid := valid_toNat c
    rw [stringBody_unit small (by omega) h, known]
  · rw [List.append_assoc, stringBody_pair small h, ← value, known]

theorem stringBody_escaped (s : List Char) (enough : s.length < fuel) :
    stringBody start fuel (s.flatMap escapeChar ++ '"' :: rest) = .ok (s, rest) := by
  induction s generalizing fuel with
  | nil =>
    obtain ⟨fuel, rfl⟩ := Nat.exists_eq_succ_of_ne_zero (Nat.ne_zero_of_lt enough)
    rw [List.flatMap_nil, List.nil_append, stringBody]
  | cons c s ih =>
    obtain ⟨fuel, rfl⟩ := Nat.exists_eq_succ_of_ne_zero (Nat.ne_zero_of_lt enough)
    rw [List.flatMap_cons, List.append_assoc]
    exact stringBody_escapeChar c (ih (Nat.lt_of_succ_lt_succ enough))

end reading

end Stencil.Json
