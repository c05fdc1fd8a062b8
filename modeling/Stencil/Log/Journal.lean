import Stencil.Log.Record
import Stencil.Log.Scope
import Stencil.Text.Lines

/-!
The journal: where records go. One handler at a time takes them; a record below the handler's level
is dropped, and so is one that cannot be written.
-/

namespace Stencil.Log

structure Handler where
  sink : String
  level : Int
  layout : Layout
  deriving Repr

def fallbackLevel : Int := 30

structure Journal where
  clock : String := ""
  handler : Option Handler := none
  /-- What was written and not yet read, each text with its sink. -/
  written : List (String × String) := []

/-- Whether a record of this level is taken; a level that is not positive never is. -/
def Handler.accepts (h : Handler) (level : Int) : Bool :=
  0 < level && (if h.level = 0 then fallbackLevel else h.level) ≤ level

namespace Journal

def configure (j : Journal) (h : Handler) : Journal :=
  { j with handler := some h }

def log (j : Journal) (compileId : Option String) (r : Record) : Journal :=
  match j.handler with
  | none => j
  | some h =>
    if h.accepts r.level then
      match (r.stamp compileId).text h.layout j.clock with
      | .ok text => { j with written := j.written ++ [(h.sink, text)] }
      | .error _ => j
    else j

def linesOf (text : String) : List String :=
  Text.pieces '\n' text

def take (j : Journal) (sink : String) : List String × Journal :=
  (j.written.flatMap fun (s, text) => if s == sink then linesOf text else [],
    { j with written := j.written.filter fun (s, _) => s != sink })

end Journal

end Stencil.Log
