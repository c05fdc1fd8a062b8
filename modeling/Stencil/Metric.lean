import Stencil.Datum

/-!
Metrics: counters, gauges and histograms, and the registry that compilations report to. An update
that fails leaves its metric as it was. A histogram starts from an infinite least and greatest value
that are never shown.
-/

namespace Stencil

structure Summary where
  count : Nat
  total : Datum
  least : Datum
  greatest : Datum

inductive Measure where
  | counter (value : Datum)
  | gauge (value : Datum)
  | histogram (summary : Summary)

structure Metric where
  name : String
  description : String
  measure : Measure

inductive MetricError where
  | arithmetic (error : ArithmeticError)
  /-- The operands of an operation have no such operation. -/
  | operands (operation left right : String)
  | operand (kind : String)
  | concatenation (container kind : String)
  | notIterable (kind : String)
  | notOrdered (operation left right : String)
  | absent (metric operation : String)
  | unvalued (metric operation : String)
  deriving DecidableEq, Repr

namespace MetricError

def kind : MetricError → String
  | arithmetic e => e.kind
  | absent _ _ => "AttributeError"
  | _ => "TypeError"

def message : MetricError → String
  | arithmetic e => e.message
  | operands operation left right =>
    "unsupported operand type(s) for " ++ operation ++ ": '" ++ left ++ "' and '" ++ right ++ "'"
  | operand kind => "bad operand type for unary -: '" ++ kind ++ "'"
  | concatenation "bytes" kind => "can't concat " ++ kind ++ " to bytes"
  | concatenation "str" kind => "can only concatenate str (not \"" ++ kind ++ "\") to str"
  | concatenation container kind =>
    "can only concatenate " ++ container ++ " (not \"" ++ kind ++ "\") to " ++ container
  | notIterable kind => "'" ++ kind ++ "' object is not iterable"
  | notOrdered operation left right =>
    "'" ++ operation ++ "' not supported between instances of '" ++ left ++ "' and '" ++ right ++ "'"
  | absent metric operation => "'" ++ metric ++ "' object has no attribute '" ++ operation ++ "'"
  | unvalued metric operation =>
    metric ++ "." ++ operation ++ "() missing 1 required positional argument: 'value'"

end MetricError

namespace Datum

def sum (operation : String) (a b : Datum) : Except MetricError Datum :=
  match a.number?, b.number? with
  | some x, some y => (x.add y).map ofNumber |>.mapError .arithmetic
  | _, _ =>
    match a, b with
    | text s, text t => .ok (text (s ++ t))
    | bytes s, bytes t => .ok (bytes (s ++ t))
    | list s, list t => .ok (list (s ++ t))
    | tuple s, tuple t => .ok (tuple (s ++ t))
    | text _, d => .error (.concatenation "str" d.kind)
    | bytes _, d => .error (.concatenation "bytes" d.kind)
    | list s, d =>
      if operation == "+=" then
        match d with
        | tuple t => .ok (list (s ++ t))
        | text t => .ok (list (s ++ t.toList.map fun c => text (String.singleton c)))
        | table t => .ok (list (s ++ t.map Prod.fst))
        | bytes t => .ok (list (s ++ t.map fun x => int x.toNat))
        | _ => .error (.notIterable d.kind)
      else .error (.concatenation "list" d.kind)
    | tuple _, d => .error (.concatenation "tuple" d.kind)
    | _, _ => .error (.operands operation a.kind b.kind)

def negated (d : Datum) : Except MetricError Datum :=
  match d.number? with
  | some x => .ok (ofNumber x.neg)
  | none => .error (.operand d.kind)

def less (operation : String) (a b : Datum) : Except MetricError Bool :=
  match a.number?, b.number? with
  | some x, some y => .ok (x.lt y)
  | _, _ =>
    match a, b with
    | text s, text t => .ok (s < t)
    | _, _ => .error (.notOrdered operation a.kind b.kind)

end Datum

namespace Summary

def empty : Summary :=
  ⟨0, .float 0.0, .float (1.0 / 0.0), .float (-1.0 / 0.0)⟩

/-- Adds a value; the least and greatest change only for one that is strictly beyond them. -/
def observe (s : Summary) (value : Datum) : Except MetricError Summary := do
  let total ← s.total.sum "+" value
  let below ← value.less "<" s.least
  let above ← s.greatest.less ">" value
  return ⟨s.count + 1, total, if below then value else s.least,
    if above then value else s.greatest⟩

def zero : Datum := .float 0.0

def mean (s : Summary) : Datum :=
  match s.count, s.total.number? with
  | 0, _ | _, none => zero
  | n + 1, some total =>
    match total.divide (.int (n + 1)) with
    | .ok x => .ofNumber x
    | .error _ => zero

def min (s : Summary) : Datum :=
  if s.count = 0 then zero else s.least

def max (s : Summary) : Datum :=
  if s.count = 0 then zero else s.greatest

end Summary

namespace Metric

inductive Operation where
  | inc | dec | set | observe
  deriving DecidableEq, Repr

def Operation.name : Operation → String
  | inc => "inc"
  | dec => "dec"
  | set => "set"
  | observe => "observe"

def kindName (m : Metric) : String :=
  match m.measure with
  | .counter _ => "Counter"
  | .gauge _ => "Gauge"
  | .histogram _ => "Histogram"

def counter (name description : String) : Metric := ⟨name, description, .counter Summary.zero⟩

def gauge (name description : String) : Metric := ⟨name, description, .gauge Summary.zero⟩

def histogram (name description : String) : Metric := ⟨name, description, .histogram .empty⟩

def reset (m : Metric) : Metric :=
  match m.measure with
  | .counter _ => { m with measure := .counter Summary.zero }
  | .gauge _ => { m with measure := .gauge Summary.zero }
  | .histogram _ => { m with measure := .histogram .empty }

def one : Datum := .float 1.0

def update (m : Metric) (operation : Operation) (value : Option Datum) :
    Except MetricError Metric :=
  match m.measure, operation with
  | .counter v, .inc => do
    return { m with measure := .counter (← v.sum "+=" (value.getD one)) }
  | .gauge v, .inc => do
    return { m with measure := .gauge (← v.sum "+=" (value.getD one)) }
  | .gauge v, .dec => do
    return { m with measure := .gauge (← v.sum "+=" (← (value.getD one).negated)) }
  | .gauge _, .set =>
    match value with
    | some d => .ok { m with measure := .gauge d }
    | none => .error (.unvalued m.kindName operation.name)
  | .histogram s, .observe =>
    match value with
    | some d => do return { m with measure := .histogram (← s.observe d) }
    | none => .error (.unvalued m.kindName operation.name)
  | _, _ => .error (.absent m.kindName operation.name)

def state (m : Metric) : List (String × Datum) :=
  match m.measure with
  | .counter v | .gauge v => [("value", v)]
  | .histogram s =>
    [("count", .int s.count), ("sum", s.total), ("avg", s.mean), ("min", s.min), ("max", s.max)]

def toDatum (m : Metric) : Datum :=
  match m.measure with
  | .counter v | .gauge v => v
  | .histogram _ => .table (m.state.map fun (k, v) => (.text k, v))

def add (m : Metric) (n : Int) : Metric :=
  match m.update .inc (some (.int n)) with
  | .ok m => m
  | .error _ => m

def observe (m : Metric) (x : Float) : Metric :=
  match m.update .observe (some (.float x)) with
  | .ok m => m
  | .error _ => m

end Metric

structure Registry where
  total : Metric := .counter "compilations_total" "Total compile calls"
  success : Metric := .counter "compilations_success" "Successful compiles"
  failed : Metric := .counter "compilations_failed" "Failed compiles"
  diagnostics : Metric := .counter "diagnostics_total" "Diagnostics reported"
  warnings : Metric := .counter "warnings_total" "Warning diagnostics reported"
  duration : Metric := .histogram "compile_duration_seconds" "Compile duration"
  active : Metric := .gauge "active_compilations" "Compiles in progress"

namespace Registry

def metrics (r : Registry) : List Metric :=
  [r.total, r.success, r.failed, r.diagnostics, r.warnings, r.duration, r.active]

def find? (r : Registry) (name : String) : Option Metric :=
  r.metrics.find? fun m => m.name == name

def modify (r : Registry) (name : String) (change : Metric → Metric) : Registry :=
  let at_ := fun (m : Metric) => if m.name == name then change m else m
  ⟨at_ r.total, at_ r.success, at_ r.failed, at_ r.diagnostics, at_ r.warnings, at_ r.duration,
    at_ r.active⟩

def reset (r : Registry) : Registry :=
  ⟨r.total.reset, r.success.reset, r.failed.reset, r.diagnostics.reset, r.warnings.reset,
    r.duration.reset, r.active.reset⟩

def toDatum (r : Registry) (duration : Datum) : Datum :=
  let group := fun (fields : List (String × Datum)) => Datum.table (fields.map fun (k, v) => (.text k, v))
  group
    [("compilations", group [("total", r.total.toDatum), ("success", r.success.toDatum),
        ("failed", r.failed.toDatum), ("active", r.active.toDatum)]),
     ("diagnostics", group [("total", r.diagnostics.toDatum), ("warnings", r.warnings.toDatum)]),
     ("duration", group [("compile", duration)])]

end Registry

end Stencil
