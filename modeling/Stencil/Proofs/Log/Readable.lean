import Stencil.Proofs.Log.Entry
import Stencil.Proofs.Text.Lines

/-!
The readable text of a record. It breaks no line exactly if nothing breaks one that the record brings
into it: the error, the logger, the message, the class name, and the plain texts of keys and values
(`readable_line_iff`). Only plain texts can bring a break; a text inside other data is quoted
there, and quoted text has none.
-/

namespace Stencil

namespace Text

def OneLine (s : String) : Prop := Unbroken s.toList

instance (s : String) : Decidable (OneLine s) := List.decidableBAll _ s.toList

@[simp] theorem oneLine_append (s t : String) : OneLine (s ++ t) ↔ OneLine s ∧ OneLine t := by
  simp only [OneLine, Unbroken, String.toList_append, List.forall_mem_append]

theorem oneLine_ofList (cs : List Char) :
    OneLine (String.ofList cs) ↔ ∀ c ∈ cs, isWideBreak c = false := by
  rw [OneLine, Unbroken, String.toList_ofList]

theorem oneLine_intercalate {gap : String} (bridge : OneLine gap) (texts : List String) :
    OneLine (gap.intercalate texts) ↔ ∀ t ∈ texts, OneLine t := by
  induction texts with
  | nil => simp [OneLine, Unbroken]
  | cons t texts ih =>
    cases texts with
    | nil => simp
    | cons u texts =>
      rw [String.intercalate_cons_cons, oneLine_append, oneLine_append, ih,
        List.forall_mem_cons (a := t)]
      simp only [bridge, and_true]

theorem isShown_of_isWideBreak {c : Char} (h : isWideBreak c = true) : isShown c = false := by
  have ranges : (0x7F, 0xA0) ∈ hiddenRanges ∧ (0x2028, 0x202F) ∈ hiddenRanges := by
    decide +kernel
  simp only [isWideBreak, Bool.or_eq_true, Bool.and_eq_true, decide_eq_true_eq, beq_iff_eq] at h
  unfold isShown
  split
  · exact decide_eq_false (by omega)
  · rw [Bool.not_eq_false', List.any_eq_true]
    simp only [Bool.and_eq_true, decide_eq_true_eq]
    by_cases middle : c.toNat ≤ 0xA0
    · exact ⟨_, ranges.1, by omega⟩
    · exact ⟨_, ranges.2, by omega⟩

theorem isWideBreak_of_mem_quotedChar {q c d : Char} (quote : IsQuote q) (h : d ∈ quotedChar q c) :
    isWideBreak d = false := by
  have digits {sign : Char} {width n : Nat} (hs : isWideBreak sign = false)
      (hd : d ∈ '\\' :: sign :: hex width n) : isWideBreak d = false := by
    rw [List.mem_cons, List.mem_cons] at hd
    obtain rfl | rfl | digit := hd
    · rfl
    · exact hs
    · exact (Json.isPrintable_hex digit).not_wideBreak
  have pair {mark : Char} (hm : isWideBreak mark = false) (hd : d ∈ ['\\', mark]) :
      isWideBreak d = false := @digits mark 0 0 hm hd
  unfold quotedChar at h
  split_ifs at h with marked line back tab shown
  · refine pair ?_ h
    obtain rfl | rfl := marked
    · obtain rfl | rfl := quote <;> rfl
    · rfl
  · exact pair rfl h
  · exact pair rfl h
  · exact pair rfl h
  · rw [List.mem_singleton.1 h]
    by_contra wide
    rw [Bool.not_eq_false] at wide
    rw [isShown_of_isWideBreak wide] at shown
    cases shown
  · obtain ⟨sign, known, width, escaped⟩ := escapedChar_eq c
    rw [escaped] at h
    simp only [List.mem_cons, List.not_mem_nil, or_false] at known
    obtain rfl | rfl | rfl := known <;> exact digits rfl h

theorem oneLine_quoted (s : String) : OneLine (quoted s) := by
  have quote := isQuote_quoteFor (s.toList.contains '\'') (s.toList.contains '"')
  have around : isWideBreak (quoteFor (s.toList.contains '\'') (s.toList.contains '"')) = false := by
    obtain same | same := quote <;> rw [same] <;> rfl
  rw [quoted, oneLine_ofList, List.cons_append, List.forall_mem_cons, List.forall_mem_append,
    List.forall_mem_singleton]
  refine ⟨around, fun d member => ?_, around⟩
  obtain ⟨c, -, within⟩ := List.mem_flatMap.1 member
  exact isWideBreak_of_mem_quotedChar quote within

theorem oneLine_int (i : Int) : OneLine (toString i) :=
  fun c member => ((Json.spells_int i).printable c member).not_wideBreak

end Text

open Text (OneLine oneLine_append oneLine_intercalate)

namespace Datum

variable {d : Datum}

theorem quotedItems_eq (items : List Datum) : quotedItems items = items.map quoted := by
  induction items with
  | nil => rfl
  | cons d items ih => rw [quotedItems, ih, List.map_cons]

theorem quotedEntries_eq (entries : List (Datum × Datum)) :
    quotedEntries entries = entries.map fun (k, d) => (quoted k, quoted d) := by
  induction entries with
  | nil => rfl
  | cons e entries ih => rw [quotedEntries, ih, List.map_cons]

theorem Portable.oneLine_quoted (h : d.Portable) : OneLine d.quoted := by
  induction h with
  | null => decide
  | bool b => cases b <;> decide
  | int i => exact Text.oneLine_int i
  | text s => exact Text.oneLine_quoted s
  | list _ ih =>
    rw [quoted, listText, quotedItems_eq, oneLine_append, oneLine_append,
      oneLine_intercalate (by decide), List.forall_mem_map]
    exact ⟨⟨by decide, ih⟩, by decide⟩
  | table _ _ ih =>
    rw [ofFields, quoted, tableText, quotedEntries_eq, oneLine_append, oneLine_append,
      oneLine_intercalate (by decide), List.forall_mem_map, List.forall_mem_map, List.forall_mem_map]
    refine ⟨⟨by decide, fun f member => ?_⟩, by decide⟩
    simp only [oneLine_append]
    exact ⟨⟨Text.oneLine_quoted f.1, by decide⟩, ih f member⟩

theorem Portable.oneLine_plain_iff (h : d.Portable) :
    OneLine d.plain ↔ ∀ s, d = .text s → OneLine s := by
  cases d with
  | text s => simp [plain]
  | _ => simpa [plain] using h.oneLine_quoted

end Datum

namespace Log

theorem oneLine_levelName (level : Int) : OneLine (levelName level) := by
  unfold levelName
  split
  case h_7 => exact (oneLine_append _ _).2 ⟨by decide, Text.oneLine_int level⟩
  all_goals decide

theorem oneLine_padRight (width : Nat) (s : String) : OneLine (padRight width s) ↔ OneLine s := by
  have blanks : OneLine (String.ofList (List.replicate (width - s.length) ' ')) := by
    rw [Text.oneLine_ofList]
    intro c member
    rw [List.eq_of_mem_replicate member]
    rfl
  rw [padRight, oneLine_append]
  exact and_iff_left blanks

theorem oneLine_fieldsText (fields : List (Datum × Datum)) :
    OneLine (fieldsText fields) ↔ ∀ f ∈ fields, OneLine f.1.plain ∧ OneLine f.2.plain := by
  cases fields with
  | nil => simpa [fieldsText] using (by decide : OneLine "")
  | cons f fields =>
    have outer : OneLine " (" ∧ OneLine ")" ∧ OneLine "=" := by decide
    rw [fieldsText]
    · simp only [oneLine_append, oneLine_intercalate (by decide : OneLine ", "), List.forall_mem_map,
        outer, true_and, and_true]
    · simp

structure Record.FitsLine (r : Record) : Prop where
  failure : r.failure = none
  logger : OneLine r.logger
  message : OneLine r.message
  className : ∀ d, r.className = some d → OneLine d.plain
  fields : ∀ f ∈ r.fields.getD [], OneLine f.1.plain ∧ OneLine f.2.plain

section readable

variable {r : Record}

theorem Record.readableText_eq (r : Record) :
    r.readableText = padRight 7 (levelName r.level) ++ " [" ++ (r.className.map Datum.plain).getD "-" ++
      "] " ++ r.logger ++ ": " ++ r.message ++ fieldsText (r.fields.getD []) ++
      (r.failure.map ("\n" ++ ·)).getD "" := by
  unfold readableText
  cases r.failure <;> rfl

theorem Record.oneLine_readableText_iff (r : Record) : OneLine r.readableText ↔ r.FitsLine := by
  have shown : OneLine ((r.className.map Datum.plain).getD "-") ↔
      ∀ d, r.className = some d → OneLine d.plain := by
    cases r.className with
    | none => simpa using (by decide : OneLine "-")
    | some d => simp
  have failed : OneLine ((r.failure.map ("\n" ++ ·)).getD "") ↔ r.failure = none := by
    cases r.failure with
    | none => simpa using (by decide : OneLine "")
    | some text => simpa using fun broken => absurd broken (by decide : ¬OneLine "\n")
  have marks : OneLine " [" ∧ OneLine "] " ∧ OneLine ": " := by decide
  simp only [readableText_eq, oneLine_append, oneLine_padRight, oneLine_levelName, shown,
    oneLine_fieldsText, failed, marks, true_and, and_true]
  constructor
  · rintro ⟨⟨⟨⟨className, logger⟩, message⟩, fields⟩, failure⟩
    exact ⟨failure, logger, message, className, fields⟩
  · rintro ⟨failure, logger, message, className, fields⟩
    exact ⟨⟨⟨⟨className, logger⟩, message⟩, fields⟩, failure⟩

theorem Record.Carries.fitsLine_iff {fields : List (String × Datum)} (h : r.Carries fields) :
    r.FitsLine ↔ r.failure = none ∧ OneLine r.logger ∧ OneLine r.message ∧
      (∀ s, r.className = some (.text s) → OneLine s) ∧
      ∀ f ∈ fields, OneLine f.1 ∧ ∀ s, f.2 = .text s → OneLine s := by
  have named : (∀ d, r.className = some d → OneLine d.plain) ↔
      ∀ s, r.className = some (.text s) → OneLine s := by
    have kept := h.className
    cases hc : r.className with
    | none => simp
    | some d =>
      rw [hc] at kept
      simpa using kept.oneLine_plain_iff
  have carried : (∀ f ∈ r.fields.getD [], OneLine f.1.plain ∧ OneLine f.2.plain) ↔
      ∀ f ∈ fields, OneLine f.1 ∧ ∀ s, f.2 = .text s → OneLine s := by
    rw [h.given, Datum.entriesOf, List.forall_mem_map]
    exact forall₂_congr fun f member => and_congr Iff.rfl (h.portable f member).oneLine_plain_iff
  constructor
  · intro fits
    exact ⟨fits.failure, fits.logger, fits.message, named.1 fits.className, carried.1 fits.fields⟩
  · rintro ⟨failure, logger, message, className, each⟩
    exact ⟨failure, logger, message, named.2 className, carried.2 each⟩

/-- A record whose arguments fit its template has a readable text, and that is one line exactly if
nothing that the record brings into it breaks one. Of fields that JSON keeps, only the names and the
texts can. -/
theorem readable_line_iff (r : Record) (time template : String) (arguments : List Datum) :
    match Log.message template arguments with
    | .error fault => r.line .readable time template arguments = .error (.inl fault)
    | .ok message => ∃ text, r.line .readable time template arguments = .ok text ∧
        (OneLine text ↔ ({ r with message } : Record).FitsLine) ∧
        ∀ fields, ({ r with message } : Record).Carries fields →
          (OneLine text ↔ r.failure = none ∧ OneLine r.logger ∧ OneLine message ∧
            (∀ s, r.className = some (.text s) → OneLine s) ∧
            ∀ f ∈ fields, OneLine f.1 ∧ ∀ s, f.2 = .text s → OneLine s) := by
  unfold Record.line
  cases Log.message template arguments with
  | error fault => rfl
  | ok message =>
    have fits := Record.oneLine_readableText_iff { r with message }
    exact ⟨_, rfl, fits, fun fields carries => fits.trans carries.fitsLine_iff⟩

/-- A warning with a line end in its text reads as two records. -/
theorem readableText_forged :
    let r : Record :=
      { logger := "kiln.compiler", level := 10, className := some (.text "T")
        message := "Compiler warning: x\nINFO    [T] kiln.compiler: Compiled T" }
    let first : Record := { r with message := "Compiler warning: x" }
    let second : Record := { r with level := 20, message := "Compiled T" }
    r.failure = none ∧ ¬OneLine r.readableText ∧
      r.readableText = first.readableText ++ "\n" ++ second.readableText := by
  decide +kernel

end readable

end Log

end Stencil
