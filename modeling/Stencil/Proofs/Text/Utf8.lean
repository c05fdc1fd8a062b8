import Stencil.Proofs.Text.Column

/-!
UTF-8 forms that are cut off. Of a text whose bytes end anywhere, inside a character too, exactly the
characters can be read that fit before the end (`length_spelled_take`).
-/

namespace Stencil.Text

def utf8 (s : List Char) : List UInt8 := s.flatMap String.utf8EncodeChar

@[simp] theorem utf8_nil : utf8 [] = [] := rfl

@[simp] theorem utf8_cons (c : Char) (s : List Char) :
    utf8 (c :: s) = String.utf8EncodeChar c ++ utf8 s := rfl

@[simp] theorem length_utf8 (s : List Char) : (utf8 s).length = utf8Length s := by
  induction s with
  | nil => rfl
  | cons c s ih => rw [utf8_cons, List.length_append, String.length_utf8EncodeChar, ih, utf8Length_cons]

def firstChar? (bytes : List UInt8) : Option Char := bytes.toByteArray.utf8DecodeChar? 0

def spelled : List UInt8 → List Char
  | [] => []
  | b :: bytes =>
    match firstChar? (b :: bytes) with
    | some c => c :: spelled (bytes.drop (c.utf8Size - 1))
    | none => spelled bytes
termination_by bytes => bytes.length

variable {c : Char} {k : Nat}

theorem firstChar?_append (c : Char) (bytes : List UInt8) :
    firstChar? (String.utf8EncodeChar c ++ bytes) = some c := by
  rw [firstChar?, List.toByteArray_append, ByteArray.utf8DecodeChar?_utf8EncodeChar_append]

theorem firstChar?_take (short : k < c.utf8Size) :
    firstChar? ((String.utf8EncodeChar c).take k) = none := by
  cases read : firstChar? ((String.utf8EncodeChar c).take k) with
  | none => rfl
  | some d =>
    have fits := ByteArray.le_size_of_utf8DecodeChar?_eq_some read
    have whole := ByteArray.utf8DecodeChar?_append_eq_some read ((String.utf8EncodeChar c).drop k).toByteArray
    rw [← List.toByteArray_append, List.take_append_drop] at whole
    have same := firstChar?_append c []
    rw [List.append_nil] at same
    cases whole.symm.trans same
    rw [List.size_toByteArray, List.length_take, String.length_utf8EncodeChar] at fits
    omega

theorem firstChar?_drop {j : Nat} (later : 0 < j) :
    firstChar? (((String.utf8EncodeChar c).take k).drop j) = none := by
  cases read : firstChar? (((String.utf8EncodeChar c).take k).drop j) with
  | none => rfl
  | some d =>
    have first := ByteArray.isUTF8FirstByte_of_isSome_utf8DecodeChar? (Option.isSome_of_eq_some read)
    rw [List.getElem_toByteArray, List.getElem_drop, List.getElem_take,
      UInt8.isUTF8FirstByte_getElem_utf8EncodeChar] at first
    omega

theorem spelled_eq_nil {bytes : List UInt8} (unread : ∀ j, firstChar? (bytes.drop j) = none) :
    spelled bytes = [] := by
  induction bytes with
  | nil => rw [spelled]
  | cons b rest ih =>
    have first := unread 0
    rw [List.drop_zero] at first
    rw [spelled, first]
    exact ih fun j => unread (j + 1)

theorem spelled_take (short : k < c.utf8Size) : spelled ((String.utf8EncodeChar c).take k) = [] := by
  refine spelled_eq_nil fun j => ?_
  obtain rfl | later := Nat.eq_zero_or_pos j
  · exact firstChar?_take short
  · exact firstChar?_drop later

theorem spelled_append (c : Char) (bytes : List UInt8) :
    spelled (String.utf8EncodeChar c ++ bytes) = c :: spelled bytes := by
  have read := firstChar?_append c bytes
  have size := String.length_utf8EncodeChar c
  cases form : String.utf8EncodeChar c with
  | nil => exact absurd form String.utf8EncodeChar_ne_nil
  | cons b rest =>
    rw [form] at read size
    rw [List.cons_append] at read ⊢
    rw [spelled, read]
    dsimp only
    rw [← size, List.length_cons, Nat.add_sub_cancel, List.drop_left]

theorem length_spelled_take (s : List Char) (k : Nat) :
    (spelled ((utf8 s).take k)).length = wholeChars s k := by
  induction s generalizing k with
  | nil => rw [utf8_nil, List.take_nil, spelled, wholeChars, List.length_nil]
  | cons c s ih =>
    rw [utf8_cons, List.take_append, String.length_utf8EncodeChar, wholeChars]
    split
    · next fits =>
      rw [List.take_of_length_le (by rwa [String.length_utf8EncodeChar]), spelled_append,
        List.length_cons, ih]
    · next short =>
      rw [Nat.sub_eq_zero_of_le (Nat.le_of_not_le short), List.take_zero, List.append_nil,
        spelled_take (Nat.not_le.1 short), List.length_nil]

end Stencil.Text
