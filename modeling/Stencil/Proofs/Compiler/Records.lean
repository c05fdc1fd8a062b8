import Stencil.Proofs.Compiler.Notes
import Stencil.Proofs.Log.Entry

/-!
The records of a compilation, in their order: the source was written, the references are resolved, and
then warnings and the end (`exists_course`). None of them has a field for the id of the compilation, so
all show the id that they are stamped with. The class name is a field of some and is read off the id on
the others, where only its last segment is left; the two agree exactly for a name without dots
(`compile_names_class`).
-/

namespace Stencil

namespace Log

open Datum (entriesOf)

def shown? (line name : String) : Option Datum :=
  (Json.read line).toOption.bind fun d => d.get? name

theorem Record.Carries.exists_line {r : Record} {id : Option String} {fields : List (String × Datum)}
    (h : (r.stamp id).Carries fields) (failure : r.failure = none) (time : String) :
    ∃ line, (r.stamp id).text .json time = .ok line ∧ ∀ name,
      shown? line name = (fields.lookup name).or (((r.stamp id).base time).lookup name) := by
  have nothing : (r.stamp id).failureFields = [] := by
    rw [Record.failureFields, show (r.stamp id).failure = none from failure, Option.toList,
      List.map_nil]
  obtain ⟨line, written, -, reads⟩ := Json.read_write (h.portable_entry time) Json.plainText
  have entry : Datum.table ((r.stamp id).entry time) =
      .ofFields (Datum.putOver fields ((r.stamp id).base time)) := by
    rw [h.entry_eq, nothing, Datum.putOver_nil]
    rfl
  refine ⟨line, by rw [Record.text, Record.jsonText, written], fun name => ?_⟩
  rw [shown?, reads, Except.toOption, Option.bind_some, entry, Datum.get?_ofFields,
    Datum.lookup_putOver]

theorem Record.Carries.field?_eq {r : Record} {id : Option String} {fields : List (String × Datum)}
    (h : (r.stamp id).Carries fields) (name : String) : r.field? name = fields.lookup name := by
  have given : r.fields.getD [] = entriesOf fields := h.given
  have key (k : String) : (Datum.text k).same (.text name) = (name == k) := by
    rw [Datum.same_text, Bool.beq_comm]
  rw [Record.field?, given]
  exact @Datum.find?_entriesOf (fun k => k.same (.text name)) name key fields

theorem toList_lastSegment (name : String) :
    (lastSegment name).toList = (name.toList.reverse.takeWhile (· != '.')).reverse := by
  rw [lastSegment, String.toList_ofList]

theorem lastSegment_append (front name : String) :
    lastSegment (front ++ "." ++ name) = lastSegment name := by
  have dot : (".".toList : List Char) = ['.'] := rfl
  rw [← String.toList_inj, toList_lastSegment, toList_lastSegment, String.toList_append,
    String.toList_append, dot, List.reverse_append, List.reverse_append, List.takeWhile_append]
  congr 1
  split
  case isTrue all =>
    have whole := (List.takeWhile_prefix (· != '.')).eq_of_length all
    rw [whole, List.reverse_singleton, List.singleton_append, List.takeWhile_cons_of_neg (by decide),
      List.append_nil]
  case isFalse => rfl

theorem lastSegment_eq_iff (name : String) : lastSegment name = name ↔ '.' ∉ name.toList := by
  rw [← String.toList_inj, toList_lastSegment, List.reverse_eq_iff, List.takeWhile_eq_self_iff]
  simp only [List.mem_reverse, bne_iff_ne]
  exact ⟨fun apart dot => apart _ dot rfl, fun none c member same => none (same ▸ member)⟩

end Log

namespace Compiler

open Log (Record)

variable {α : Type}

section courses

def told (context : Context) (level : Int) (message folder : String) (errors warnings : Nat) :
    Record :=
  record level message [("class_name", .text context.className), ("tmp_folder", .text folder),
    ("errors", .int errors), ("warnings", .int warnings)]

/-- The records of a compilation once its references are resolved and that is noted. -/
inductive Later (context : Context) : Record → Prop
  | warned (e : Report.Entry) : Later context (warned e)
  | told (level : Int) (message folder : String) (errors warnings : Nat) :
      Later context (told context level message folder errors warnings)

/-- The records of a compilation in their order. Whether there is more than the first depends on
whether the references could be resolved. -/
inductive Course (context : Context) : Bool → List Record → Prop
  | unwritten : Course context false []
  | unresolved (folder : String) : Course context false [wrote context folder]
  | emitting (folder : String) (ds : List Dependency) {later : List Record}
      (each : ∀ r ∈ later, Later context r) :
      Course context true (wrote context folder :: resolved ds :: later)

/-- All steps before the emission: the scratch folder, the file and what the references resolve to. -/
def untilEmission (c : Compiler) (context : Context) : Work (String × String × List Dependency) := do
  let folder ← c.makeFolder
  let path ← c.store context folder
  let dependencies ← c.resolveAll folder context
  return (folder, path, dependencies)

def Call.resolves (k : Call) : Bool :=
  ((k.compiler.untilEmission k.context).run.run k.begun).1.toOption.isSome

variable {c : Compiler} {context : Context} {code : Work α} {w : Workshop} {P : Record → Prop}

theorem Noting.silent (h : Noting (fun _ => False) code) (w : Workshop) : Notes code w [] := by
  obtain ⟨rs, notes, none⟩ := h w
  rwa [List.eq_nil_iff_forall_not_mem.2 none] at notes

theorem noting_entriesOf (ds : List Diagnostic) : Noting P (entriesOf ds) := by
  unfold entriesOf
  split
  · exact Noting.pure _
  · exact Noting.throw _

theorem noting_conclude (c : Compiler) (context : Context) (r : Emitted)
    (entries : List Report.Entry) : Noting (Later context) (c.conclude context r entries) := by
  unfold conclude
  dsimp only
  split
  · exact (Noting.log (.told _ _ _ _ _)).bind fun _ => Noting.throw _
  · split
    · exact (Noting.log (.told _ _ _ _ _)).bind fun _ => Noting.throw _
    · refine Noting.get_bind (fun _ _ => rfl) fun w => ?_
      split
      · exact Noting.throw _
      · exact Noting.throw _
      · exact (Noting.onMachine _).bind fun _ =>
          (Noting.log (.told _ _ _ _ _)).bind fun _ => Noting.pure _

theorem noting_judge (c : Compiler) (context : Context) (r : Emitted) :
    Noting (Later context) (c.judge context r) :=
  (noting_entriesOf _).bind fun entries => (noting_recordAll .warned entries).bind fun _ =>
    noting_conclude c context r entries

theorem notes_store (c : Compiler) (context : Context) (folder : String) (w : Workshop) :
    (∃ f v, (c.store context folder).run.run w = (.error f, v) ∧ Notes (c.store context folder) w []) ∨
      ∃ path v, (c.store context folder).run.run w = (.ok path, v) ∧
        Notes (c.store context folder) w [wrote context folder] := by
  have writes : Notes (writeSource (c.sourceFile context folder) context.source) w [] :=
    (noting_writeSource _ _).silent w
  rcases ran : (writeSource (c.sourceFile context folder) context.source).run.run w with ⟨f | _, v⟩
  · refine .inl ⟨f, v, ?_, writes.bind_error ran⟩
    rw [store, run_bind, ran]
  · refine .inr ⟨c.sourceFile context folder,
      { v with journal := v.journal.log v.scope.current (wrote context folder) }, ?_,
      writes.bind ran ((notes_log _ _ _ v).bind rfl (notes_pure _ _))⟩
    rw [store, run_bind, ran]
    rfl

theorem notes_untilEmission (c : Compiler) (context : Context) (w : Workshop) :
    (∃ f v rs, (c.untilEmission context).run.run w = (.error f, v) ∧
        Notes (c.untilEmission context) w rs ∧ (rs = [] ∨ ∃ folder, rs = [wrote context folder])) ∨
      ∃ p v folder, (c.untilEmission context).run.run w = (.ok p, v) ∧
        Notes (c.untilEmission context) w [wrote context folder] := by
  have makes := (noting_makeFolder c).silent w
  unfold untilEmission
  rw [run_bind]
  rcases made : c.makeFolder.run.run w with ⟨f | folder, w₁⟩ <;> dsimp only
  · exact .inl ⟨f, w₁, [], rfl, makes.bind_error made, .inl rfl⟩
  obtain ⟨f, w₂, stored, notes⟩ | ⟨path, w₂, stored, notes⟩ := notes_store c context folder w₁ <;>
    rw [run_bind, stored] <;> dsimp only
  · exact .inl ⟨f, w₂, [], rfl, makes.bind made (notes.bind_error stored), .inl rfl⟩
  have resolving := (noting_resolveAll c folder context).silent w₂
  rw [run_bind]
  rcases ran : (c.resolveAll folder context).run.run w₂ with ⟨f | ds, w₃⟩ <;> dsimp only
  · exact .inl ⟨f, w₃, _, rfl, makes.bind made (notes.bind stored (resolving.bind_error ran)),
      .inr ⟨folder, rfl⟩⟩
  · exact .inr ⟨_, w₃, folder, rfl,
      makes.bind made (notes.bind stored (resolving.bind ran (notes_pure _ w₃)))⟩

/-- The rest of a compilation notes what the references are resolved to, and then warnings and the
end. -/
theorem notes_fromEmission (c : Compiler) (context : Context) (folder path : String)
    (ds : List Dependency) (w : Workshop) :
    ∃ later, Notes (c.emitInto context path ds >>= fun emitted =>
        c.judge context ⟨folder, path, emitted.1, emitted.2⟩) w (resolved ds :: later) ∧
      ∀ r ∈ later, Later context r := by
  have emits : Notes (c.emitInto context path ds) w [resolved ds] := by
    refine (notes_log _ _ _ w).bind rfl (Noting.silent ?_ _)
    refine Noting.get_bind (fun _ _ => rfl) fun v => (Noting.onMachine _).bind fun b => ?_
    refine Noting.bind (Noting.modify (fun _ _ => rfl) fun _ => rfl) fun _ => ?_
    exact (Noting.onMachine _).bind fun e => Noting.pure _
  rcases ran : (c.emitInto context path ds).run.run w with ⟨f | emitted, v⟩
  · exact ⟨[], emits.bind_error ran, List.forall_mem_nil _⟩
  · obtain ⟨later, notes, each⟩ := noting_judge c context ⟨folder, path, emitted.1, emitted.2⟩ v
    exact ⟨later, emits.bind ran notes, each⟩

theorem carryOut_eq_untilEmission (c : Compiler) (context : Context) :
    c.carryOut context = c.untilEmission context >>= fun p =>
      c.emitInto context p.2.1 p.2.2 >>= fun emitted =>
        c.judge context ⟨p.1, p.2.1, emitted.1, emitted.2⟩ := by
  unfold carryOut toEmission untilEmission
  simp only [bind_assoc, pure_bind]

theorem exists_course (k : Call) : ∃ rs, k.Logs rs ∧ Course k.context k.resolves rs := by
  obtain ⟨c, context, w⟩ := k
  unfold Call.resolves Call.begun
  dsimp only
  obtain ⟨f, v, rs, ran, notes, first⟩ | ⟨p, v, folder, ran, notes⟩ :=
    notes_untilEmission c context (c.enter context w).1 <;> rw [ran]
  · refine ⟨rs, logs_of_notes ?_, ?_⟩
    · rw [carryOut_eq_untilEmission]
      exact notes.bind_error ran
    · obtain rfl | ⟨folder, rfl⟩ := first
      · exact .unwritten
      · exact .unresolved folder
  · obtain ⟨later, rest, each⟩ := notes_fromEmission c context p.1 p.2.1 p.2.2 v
    refine ⟨wrote context folder :: resolved p.2.2 :: later, logs_of_notes ?_, .emitting _ _ each⟩
    rw [carryOut_eq_untilEmission]
    exact notes.bind ran rest

end courses

section shown

variable {context : Context} {r : Record} {rs : List Record} {resolved? : Bool}
  {fields : List (String × Datum)}

theorem carries_record (distinct : (fields.map Prod.fst).Nodup) (portable : ∀ f ∈ fields, f.2.Portable)
    (id : Option String) (level : Int) (message : String) :
    ((record level message fields).stamp id).Carries fields :=
  ⟨rfl, distinct, portable, .text _, .text _⟩

/-- What a record of a compilation has: fields that JSON keeps, none of them for the id, and none for
another class. -/
structure Describes (context : Context) (r : Record) (fields : List (String × Datum)) : Prop where
  carries : ∀ id, (r.stamp id).Carries fields
  failure : r.failure = none
  compileId : fields.lookup "compile_id" = none
  className : ∀ d, fields.lookup "class_name" = some d → d = .text context.className

theorem describes_record (distinct : (fields.map Prod.fst).Nodup)
    (portable : ∀ f ∈ fields, f.2.Portable) (compileId : fields.lookup "compile_id" = none)
    (className : ∀ d, fields.lookup "class_name" = some d → d = .text context.className)
    (level : Int) (message : String) : Describes context (record level message fields) fields :=
  ⟨fun id => carries_record distinct portable id level message, rfl, compileId, className⟩

theorem describes_wrote (context : Context) (folder : String) : Describes context (wrote context folder)
    [("class_name", .text context.className), ("tmp_folder", .text folder)] := by
  refine describes_record (by simp) ?_ rfl ?_ _ _
  · simp only [List.forall_mem_cons]
    exact ⟨.text _, .text _, List.forall_mem_nil _⟩
  · rintro d ⟨⟩
    rfl

theorem describes_resolved (context : Context) (ds : List Dependency) :
    Describes context (resolved ds) [("references", .list (ds.map fun d => .text d.display))] := by
  refine describes_record (by simp) ?_ rfl (fun d found => by cases found) _ _
  rw [List.forall_mem_singleton]
  refine .list fun d member => ?_
  obtain ⟨e, -, rfl⟩ := List.mem_map.1 member
  exact .text _

theorem Later.describes (h : Later context r) : ∃ fields, Describes context r fields := by
  cases h with
  | warned e =>
    refine ⟨_, describes_record (by simp) ?_ rfl (fun d found => by cases found) _ _⟩
    simp only [List.forall_mem_cons]
    exact ⟨.text _, .int _, List.forall_mem_nil _⟩
  | told level message folder errors warnings =>
    refine ⟨_, describes_record (by simp) ?_ rfl ?_ _ _⟩
    · simp only [List.forall_mem_cons]
      exact ⟨.text _, .text _, .int _, .int _, List.forall_mem_nil _⟩
    · rintro d ⟨⟩
      rfl

theorem Course.describes (h : Course context resolved? rs) :
    ∀ r ∈ rs, ∃ fields, Describes context r fields := by
  cases h with
  | unwritten => exact List.forall_mem_nil _
  | unresolved folder => exact List.forall_mem_singleton.2 ⟨_, describes_wrote context folder⟩
  | emitting folder ds each =>
    rw [List.forall_mem_cons, List.forall_mem_cons]
    exact ⟨⟨_, describes_wrote context folder⟩, ⟨_, describes_resolved context ds⟩,
      fun r member => (each r member).describes⟩

/-- Every record shows the id that it is stamped with, and its own class name or the last segment of
the id. -/
theorem Describes.exists_line (h : Describes context r fields) (name time : String) :
    ∃ line, (r.stamp (some name)).text .json time = .ok line ∧
      Log.shown? line "compile_id" = some (.text name) ∧
      Log.shown? line "class_name" =
        some ((r.field? "class_name").getD (.text (Log.lastSegment name))) := by
  obtain ⟨line, written, shown⟩ := (h.carries (some name)).exists_line h.failure time
  refine ⟨line, written, ?_, ?_⟩
  · rw [shown, h.compileId]
    rfl
  · rw [shown, (h.carries none).field?_eq]
    cases fields.lookup "class_name" <;> rfl

end shown

section calls

variable {k : Call} {rs : List Record}

theorem Call.id_eq (k : Call) : k.id = some (k.compiler.moduleName k.context) := by
  have filled : k.compiler.moduleName k.context ≠ "" := by
    rw [moduleName, ← String.toList_inj.ne]
    simp
  unfold Call.id Log.nonempty
  split
  case h_1 same => exact absurd (Option.some.inj same) filled
  case h_2 => rfl

theorem Call.lastSegment_moduleName (k : Call) :
    Log.lastSegment (k.compiler.moduleName k.context) = Log.lastSegment k.context.className :=
  Log.lastSegment_append _ _

def Call.journal (k : Call) (journal : Log.Journal) : Log.Journal :=
  ((k.compiler.compile k.context).run { k.workshop with journal }).2.journal

theorem Call.Logs.journal_eq (logs : k.Logs rs) (journal : Log.Journal) :
    k.journal journal = journal.logAll k.id rs := by
  rw [Call.journal, logs journal]

/-- What a call writes into a journal for JSON: a line for each of the records that the handler takes, and
what the line has under a name. -/
structure Call.Shows (k : Call) (rs : List Record) (name : String) (value : Record → Datum)
    (journal : Log.Journal) (h : Log.Handler) (lines : List String) : Prop where
  written : (k.journal journal).written = journal.written ++ lines.map (Prod.mk h.sink)
  each : List.Forall₂ (fun r line => Log.shown? line name = some (value r)) (rs.filter h.takes) lines

/-- The class name that a record of a call shows: its own, or else the last segment of the context's. -/
def Call.classOf (k : Call) (r : Record) : Datum :=
  (r.field? "class_name").getD (.text (Log.lastSegment k.context.className))

section written

variable {journal : Log.Journal} {h : Log.Handler}

theorem Course.exists_line (course : Course k.context k.resolves rs) {r : Log.Record} (member : r ∈ rs)
    (time : String) : ∃ line, (r.stamp k.id).text .json time = .ok line ∧
      Log.shown? line "compile_id" = some (.text (k.compiler.moduleName k.context)) ∧
      Log.shown? line "class_name" = some (k.classOf r) := by
  obtain ⟨fields, describes⟩ := course.describes r member
  rw [k.id_eq, Call.classOf, ← k.lastSegment_moduleName]
  exact describes.exists_line _ time

theorem Course.shows_compileId (course : Course k.context k.resolves rs) (logs : k.Logs rs)
    (taken : journal.handler = some h) (json : h.layout = .json) :
    ∃ lines, k.Shows rs "compile_id" (fun _ => .text (k.compiler.moduleName k.context)) journal h
      lines := by
  obtain ⟨lines, written, each⟩ := Log.Journal.logAll_written
    (P := fun _ line => Log.shown? line "compile_id" = some (.text (k.compiler.moduleName k.context)))
    taken k.id rs fun r member => by
      obtain ⟨line, made, id, -⟩ := course.exists_line member journal.clock
      exact ⟨line, by rw [json, made], id⟩
  exact ⟨lines, by rw [logs.journal_eq, written], each⟩

theorem Course.shows_class (course : Course k.context k.resolves rs) (logs : k.Logs rs)
    (taken : journal.handler = some h) (json : h.layout = .json) :
    ∃ lines, k.Shows rs "class_name" k.classOf journal h lines := by
  obtain ⟨lines, written, each⟩ := Log.Journal.logAll_written
    (P := fun r line => Log.shown? line "class_name" = some (k.classOf r)) taken k.id rs fun r member => by
      obtain ⟨line, made, -, own⟩ := course.exists_line member journal.clock
      exact ⟨line, by rw [json, made], own⟩
  exact ⟨lines, by rw [logs.journal_eq, written], each⟩

end written

theorem Course.eq_of_field? (course : Course k.context k.resolves rs) {r : Log.Record}
    (member : r ∈ rs) {d : Datum} (found : r.field? "class_name" = some d) :
    d = .text k.context.className := by
  obtain ⟨fields, describes⟩ := course.describes r member
  rw [(describes.carries none).field?_eq] at found
  exact describes.className d found

theorem Call.classOf_wrote (k : Call) (folder : String) :
    k.classOf (wrote k.context folder) = .text k.context.className := rfl

/-- The records of a call show the name of the context if it has no dot, for then it is its own last
segment, or if there was no record of the references. -/
theorem Course.classOf_eq (course : Course k.context k.resolves rs)
    (alike : k.resolves = false ∨ '.' ∉ k.context.className.toList) :
    ∀ r ∈ rs, k.classOf r = .text k.context.className := by
  obtain unresolved | dotless := alike
  · rw [unresolved] at course
    cases course with
    | unwritten => exact List.forall_mem_nil _
    | unresolved folder => exact List.forall_mem_singleton.2 (k.classOf_wrote folder)
  · intro r member
    rw [Call.classOf]
    cases found : r.field? "class_name" with
    | none => rw [Option.getD_none, (Log.lastSegment_eq_iff _).2 dotless]
    | some d => rw [Option.getD_some, course.eq_of_field? member found]

/-- The second line of a call is about the references, and its class name is the last segment. -/
theorem Call.Shows.of_emitting {journal : Log.Journal} {h : Log.Handler} {lines : List String}
    {folder : String} {ds : List Dependency} {later : List Record}
    (shown : k.Shows (wrote k.context folder :: resolved ds :: later) "class_name" k.classOf journal h
      lines) (debug : h.accepts debugLevel = true) :
    ∃ first second rest, lines = first :: second :: rest ∧
      Log.shown? first "class_name" = some (.text k.context.className) ∧
      Log.shown? second "class_name" = some (.text (Log.lastSegment k.context.className)) := by
  have each := shown.each
  rw [List.filter_cons_of_pos (show h.takes (wrote k.context folder) = true from debug),
    List.filter_cons_of_pos (show h.takes (resolved ds) = true from debug)] at each
  cases each with | cons one others
  cases others with | cons two rest
  exact ⟨_, _, _, rfl, one, two⟩

theorem forall_mem_of_forall₂ {α β : Type} {R : α → β → Prop} {P : β → Prop} {as : List α}
    {bs : List β} (h : List.Forall₂ R as bs) (holds : ∀ a ∈ as, ∀ b, R a b → P b) : ∀ b ∈ bs, P b := by
  induction h with
  | nil => exact List.forall_mem_nil P
  | cons one _ ih =>
    rw [List.forall_mem_cons] at holds ⊢
    exact ⟨holds.1 _ one, ih holds.2⟩

/-- All lines show the name of the context exactly if it has no dot or there was no record of the
references. -/
theorem Course.shows_iff (course : Course k.context k.resolves rs) {journal : Log.Journal}
    {h : Log.Handler} {lines : List String} (shown : k.Shows rs "class_name" k.classOf journal h lines)
    (debug : h.accepts debugLevel = true) :
    (∀ line ∈ lines, Log.shown? line "class_name" = some (.text k.context.className)) ↔
      k.resolves = false ∨ '.' ∉ k.context.className.toList := by
  refine ⟨fun agree => ?_, fun alike => ?_⟩
  · cases resolves : k.resolves with
    | false => exact .inl rfl
    | true =>
      rw [resolves] at course
      cases course with | @emitting folder ds later each
      obtain ⟨first, second, rest, rfl, -, named⟩ := shown.of_emitting debug
      rw [agree second (by simp)] at named
      exact .inr ((Log.lastSegment_eq_iff _).1 (Datum.text.inj (Option.some.inj named)).symm)
  · refine forall_mem_of_forall₂ shown.each fun r member line named => ?_
    rw [named, course.classOf_eq alike r (List.mem_of_mem_filter member)]

/-- The lines of a call: each shows its own class name, which is that of the context, or else the
last segment of it. -/
theorem compile_names_class (k : Call) : ∃ rs, k.Logs rs ∧ Course k.context k.resolves rs ∧
    (∀ r ∈ rs, ∀ d, r.field? "class_name" = some d → d = .text k.context.className) ∧
    ∀ journal h, journal.handler = some h → h.layout = .json → ∃ lines,
      k.Shows rs "class_name" k.classOf journal h lines ∧
      (h.accepts debugLevel = true →
        ((∀ line ∈ lines, Log.shown? line "class_name" = some (.text k.context.className)) ↔
          k.resolves = false ∨ '.' ∉ k.context.className.toList)) := by
  obtain ⟨rs, logs, course⟩ := exists_course k
  refine ⟨rs, logs, course, fun r member d => course.eq_of_field? member, fun journal h taken json => ?_⟩
  obtain ⟨lines, shown⟩ := course.shows_class logs taken json
  exact ⟨lines, shown, course.shows_iff shown⟩

/-- Two lines of one call, for a nested class, show two names. -/
theorem compile_misnames :
    let k : Call :=
      { compiler := {}
        context := { source := "class A:\n    class B: pass\n", className := "A.B" }
        workshop := { machine := { files := { folders := [["tmp"]] } } } }
    let journal : Log.Journal := { clock := "now", handler := some ⟨"log", debugLevel, .json⟩ }
    ∃ first second rest, (k.journal journal).written = ("log", first) :: ("log", second) :: rest ∧
      Log.shown? first "class_name" = some (.text "A.B") ∧
      Log.shown? second "class_name" = some (.text "B") := by
  intro k journal
  have resolves : k.resolves = true := by decide +kernel
  obtain ⟨rs, logs, course⟩ := exists_course k
  obtain ⟨lines, shown⟩ := course.shows_class logs (rfl : journal.handler = some _) rfl
  rw [resolves] at course
  cases course with | @emitting folder ds later each
  have segment : Log.lastSegment k.context.className = "B" := by decide +kernel
  obtain ⟨first, second, rest, rfl, one, two⟩ := shown.of_emitting (by decide)
  rw [segment] at two
  exact ⟨first, second, _, shown.written, one, two⟩

end calls

end Compiler

end Stencil
