import Stencil.Log.Record
import Stencil.Proofs.Json.Written

/-!
The JSON entry of a record: the keys of every record with the fields of the compilation over them, and the
error over all. So an entry has every key once, and its text is one line from which the entry is read back
(`json_line_reads`).
-/

namespace Stencil

theorem Json.IsPrintable.not_wideBreak {c : Char} (h : Json.IsPrintable c) :
    Text.isWideBreak c = false := by
  obtain ⟨low, high⟩ := h
  simp only [Text.isWideBreak, Bool.or_eq_false_iff, Bool.and_eq_false_imp, decide_eq_true_eq,
    decide_eq_false_iff_not, beq_eq_false_iff_ne]
  omega

namespace Log

open Datum (entriesOf putOver)

namespace Record

def base (time : String) (r : Record) : List (String × Datum) :=
  [("timestamp", .text time), ("level", .text (levelName r.level)), ("logger", .text r.logger),
    ("message", .text r.message), ("compile_id", r.compileId.getD .null),
    ("class_name", r.className.getD .null)]

def failureFields (r : Record) : List (String × Datum) :=
  r.failure.toList.map fun text => ("exception", .text text)

/-- A record has certain fields, and JSON keeps them and what the record is marked with. -/
structure Carries (r : Record) (fields : List (String × Datum)) : Prop where
  given : r.fields.getD [] = entriesOf fields
  distinct : (fields.map Prod.fst).Nodup
  portable : ∀ f ∈ fields, f.2.Portable
  compileId : (r.compileId.getD .null).Portable
  className : (r.className.getD .null).Portable

/-- The text of a record whose message is made from a template and its arguments: there is none if the
arguments do not fit. -/
def line (layout : Layout) (time template : String) (arguments : List Datum) (r : Record) :
    Except (Text.Percent.Fault ⊕ Json.WriteError) String :=
  match Log.message template arguments with
  | .error fault => .error (.inl fault)
  | .ok message => (({ r with message } : Record).text layout time).mapError .inr

section entries

variable {r : Record} {fields : List (String × Datum)}

theorem nodup_base (time : String) (r : Record) : ((r.base time).map Prod.fst).Nodup := by
  simp [base]

theorem nodup_failureFields (r : Record) : (r.failureFields.map Prod.fst).Nodup := by
  cases h : r.failure <;> simp [failureFields, h]

theorem portable_failureFields (r : Record) : ∀ f ∈ r.failureFields, f.2.Portable := by
  intro f member
  obtain ⟨text, -, rfl⟩ := List.mem_map.1 member
  exact .text text

theorem Carries.entry_eq (h : r.Carries fields) (time : String) :
    r.entry time = entriesOf (putOver r.failureFields (putOver fields (r.base time))) := by
  have merged := Datum.foldl_insert_entriesOf h.distinct (r.base time)
  rw [← h.given] at merged
  cases failed : r.failure with
  | none =>
    have nothing : r.failureFields = [] := by rw [failureFields, failed, Option.toList, List.map_nil]
    rw [nothing, Datum.putOver_nil, ← merged, entry, failed]
    rfl
  | some text =>
    have one : r.failureFields = [("exception", .text text)] := by
      rw [failureFields, failed, Option.toList, List.map_singleton]
    rw [one, ← Datum.insert_entriesOf, ← merged, entry, failed]
    rfl

theorem Carries.portable_entry (h : r.Carries fields) (time : String) :
    (Datum.table (r.entry time)).Portable := by
  rw [h.entry_eq]
  refine .table (Datum.nodup_putOver r.nodup_failureFields (Datum.nodup_putOver h.distinct
    (r.nodup_base time))) (Datum.forall_mem_putOver r.portable_failureFields
      (Datum.forall_mem_putOver h.portable ?_))
  simp only [base, List.forall_mem_cons]
  exact ⟨.text _, .text _, .text _, .text _, h.compileId, h.className, List.forall_mem_nil _⟩

end entries

end Record

/-- A record whose arguments fit its template has one line of printable text, and the entry is read
back from it; a record whose arguments do not fit has no text. -/
theorem json_line_reads {r : Record} {fields : List (String × Datum)} (h : r.Carries fields)
    (time template : String) (arguments : List Datum) :
    match Log.message template arguments with
    | .error fault => r.line .json time template arguments = .error (.inl fault)
    | .ok message => ∃ line, r.line .json time template arguments = .ok line ∧
        (∀ c ∈ line.toList, Json.IsPrintable c ∧ Text.isWideBreak c = false) ∧
        Json.read line = .ok (.ofFields (putOver r.failureFields
          (putOver fields (({ r with message } : Record).base time)))) := by
  unfold Record.line
  cases made : Log.message template arguments with
  | error fault => rfl
  | ok message =>
    have carries : ({ r with message } : Record).Carries fields :=
      ⟨h.given, h.distinct, h.portable, h.compileId, h.className⟩
    obtain ⟨line, written, printable, reads⟩ :=
      Json.read_write (carries.portable_entry time) Json.plainText
    refine ⟨line, ?_, fun c member => ⟨printable c member, (printable c member).not_wideBreak⟩, ?_⟩
    · dsimp only
      rw [Record.text, Record.jsonText, written]
      rfl
    · rw [reads, carries.entry_eq]
      rfl

/-- A record with a field over its message and one whose name and value would break the line. -/
theorem json_line_reads_overridden :
    let r : Record :=
      { logger := "kiln.compiler", level := 20, message := "", compileId := some (.text "kiln.T")
        className := some (.text "T")
        fields := some [(.text "message", .list [.int 1, .null]), (.text "a\nb", .text "\"\u2028")]
        failure := some "KeyError: 1" }
    ∃ line, r.line .json "now" "Compiled %s" [.text "T"] = .ok line ∧
      (∀ c ∈ line.toList, Json.IsPrintable c ∧ Text.isWideBreak c = false) ∧
      Json.read line = .ok (.ofFields [("timestamp", .text "now"), ("level", .text "INFO"),
        ("logger", .text "kiln.compiler"), ("message", .list [.int 1, .null]),
        ("compile_id", .text "kiln.T"), ("class_name", .text "T"), ("a\nb", .text "\"\u2028"),
        ("exception", .text "KeyError: 1")]) := by
  intro r
  have carries : r.Carries [("message", .list [.int 1, .null]), ("a\nb", .text "\"\u2028")] := by
    refine ⟨rfl, by decide, ?_, .text _, .text _⟩
    simp only [List.forall_mem_cons]
    refine ⟨.list ?_, .text _, List.forall_mem_nil _⟩
    simp only [List.forall_mem_cons]
    exact ⟨.int _, .null, List.forall_mem_nil _⟩
  have made : Log.message "Compiled %s" [.text "T"] = .ok "Compiled T" := rfl
  have reads := json_line_reads carries "now" "Compiled %s" [.text "T"]
  rw [made] at reads
  exact reads

/-- Arguments that do not fit their template make no text. -/
theorem json_line_refused :
    let r : Record := ({ logger := "kiln.compiler", level := 20, message := "" } : Record).stamp none
    r.Carries [] ∧ ¬∃ line, r.line .json "now" "%d" [.text "x"] = .ok line := by
  intro r
  refine ⟨⟨rfl, .nil, List.forall_mem_nil _, .text _, .text _⟩, ?_⟩
  rintro ⟨line, written⟩
  cases written

end Log

end Stencil
