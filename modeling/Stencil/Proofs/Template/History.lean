import Stencil.Proofs.Text.Markup
import Stencil.Template

/-!
What a template renders. A body of writes and string literals always gives a text: what it wrote, in
order, the literals as they are and the values escaped. Whatever was written to the instance before
and however its earlier runs ended, the text is that of a fresh instance (`run_after`).
-/

namespace Stencil.Template

inductive Action where
  | write (value : Datum)
  | literal (value : Datum)
  | run (model : Datum) (body : List Piece)

def act (t : Template) : Action → Template
  | .write v => t.write v
  | .literal v => t.literal v
  | .run model body => (t.run model body).1

def after (t : Template) (history : List Action) : Template :=
  history.foldl act t

/-- An action of a body that reads nothing of the model and whose literals are text. -/
inductive Mark where
  | write (value : Datum)
  | literal (text : String)

namespace Mark

def piece : Mark → Piece
  | write v => .write v
  | literal s => .literal (.text s)

def shown : Mark → String
  | write .null => ""
  | write v => Text.escapeMarkup v.plain
  | literal s => s

def texts : Mark → List String
  | write .null => []
  | m => [m.shown]

theorem join_texts (m : Mark) : String.join m.texts = m.shown := by
  unfold texts
  split
  · rfl
  · simp [String.join]

end Mark

theorem step_piece (t : Template) (m : Mark) :
    t.step m.piece = ({ t with chunks := t.chunks ++ m.texts.map .text }, none) := by
  cases m with
  | literal s => rfl
  | write v => cases v <;> rfl

theorem execute_pieces (t : Template) (body : List Mark) :
    t.execute (body.map Mark.piece) =
      ({ t with chunks := t.chunks ++ (body.flatMap Mark.texts).map .text }, none) := by
  induction body generalizing t with
  | nil => simp [execute]
  | cons m body ih =>
    simp only [List.map_cons, execute, step_piece, ih, List.flatMap_cons, List.map_append,
      List.append_assoc]

theorem join_texts (n : Nat) (ss : List String) : join n (ss.map .text) = .ok (String.join ss) := by
  induction ss generalizing n with
  | nil => rfl
  | cons s ss ih =>
    simp only [List.map_cons, join, ih]
    simp [Except.map, String.join_cons]

theorem join_flatMap_texts (body : List Mark) :
    String.join (body.flatMap Mark.texts) = String.join (body.map Mark.shown) := by
  induction body with
  | nil => rfl
  | cons m body ih =>
    rw [List.flatMap_cons, List.map_cons, String.join_append, Mark.join_texts, ih, String.join_cons]

theorem run_pieces (t : Template) (model : Datum) (body : List Mark) :
    t.run model (body.map Mark.piece) =
      (⟨model, (body.flatMap Mark.texts).map .text⟩, .ok (String.join (body.map Mark.shown))) := by
  simp only [run, execute_pieces, List.nil_append, join_texts, join_flatMap_texts]

/-- A run is that of a fresh instance, whatever was done before to whatever instance. It gives the
text of its body in order, in which no value can end what stands around it: escaped text is inert and
can be read back. -/
theorem run_after (t : Template) (history : List Action) (model : Datum) (body : List Mark) :
    (t.after history).run model (body.map Mark.piece) =
        ({} : Template).run model (body.map Mark.piece) ∧
      ((t.after history).run model (body.map Mark.piece)).2 =
        .ok (String.join (body.map Mark.shown)) ∧
      ∀ s, Text.Inert (Text.escapeMarkup s) ∧ Text.unescapeMarkup (Text.escapeMarkup s) = s := by
  refine ⟨?_, ?_, fun s => ⟨Text.inert_escapeMarkup s, Text.unescapeMarkup_escapeMarkup s⟩⟩
  · rw [run_pieces, run_pieces]
  · rw [run_pieces]

-- A run that fails leaves what it wrote until then, and the next one gets rid of it.
example :
    let t := after {} [.run .null [.literal (.text "half"), .model [.text "name"]]]
    t.chunks = [.text "half"] ∧ (t.run .null [.write (.text "a<b")]).2 = .ok "a&lt;b" :=
  ⟨rfl, rfl⟩

end Stencil.Template
