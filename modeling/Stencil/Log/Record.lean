import Stencil.Datum.Access
import Stencil.Json.Text
import Stencil.Text.Percent

/-!
Log records and their two layouts: one JSON object per line for machines, and one short line for
people. Fields of a compilation are stored with the record; in JSON they stand at the top level and
win over the keys of the record without moving them.
-/

namespace Stencil.Log

structure Record where
  logger : String
  level : Int
  message : String
  compileId : Option Datum := none
  className : Option Datum := none
  fields : Option (List (Datum × Datum)) := none
  /-- The text of the error that the record reports, if it reports one. -/
  failure : Option String := none

def levelName (level : Int) : String :=
  match level with
  | 0 => "NOTSET"
  | 10 => "DEBUG"
  | 20 => "INFO"
  | 30 => "WARNING"
  | 40 => "ERROR"
  | 50 => "CRITICAL"
  | n => "Level " ++ toString n

def lastSegment (name : String) : String :=
  String.ofList ((name.toList.reverse.takeWhile (· != '.')).reverse)

/-- The text of an error that a record reports: its kind, and what it was raised with. -/
def failureText (kind : String) (arguments : List Datum) : String :=
  let shown := match arguments with
    | [] => ""
    | [d] => if kind == "KeyError" then d.quoted else d.plain
    | ds => (Datum.tuple ds).plain
  if shown == "" then kind else kind ++ ": " ++ shown

def Record.stamp (compileId : Option String) (r : Record) : Record :=
  { r with
    compileId := some (.text (compileId.getD "-"))
    className := some (.text ((compileId.map lastSegment).getD "-"))
    fields := some (r.fields.getD []) }

inductive Layout where
  | json
  | readable
  deriving DecidableEq, Repr

def Layout.name : Layout → String
  | json => "JSONFormatter"
  | readable => "ReadableFormatter"

def Record.entry (time : String) (r : Record) : List (Datum × Datum) :=
  let base : List (Datum × Datum) :=
    [(.text "timestamp", .text time), (.text "level", .text (levelName r.level)),
     (.text "logger", .text r.logger), (.text "message", .text r.message),
     (.text "compile_id", r.compileId.getD .null), (.text "class_name", r.className.getD .null)]
  let merged := (r.fields.getD []).foldl (fun e (k, v) => Datum.insert e k v) base
  match r.failure with
  | some text => Datum.insert merged (.text "exception") (.text text)
  | none => merged

def Record.jsonText (time : String) (r : Record) : Except Json.WriteError String :=
  Json.write Json.plainText (.table (r.entry time))

def padRight (width : Nat) (s : String) : String :=
  s ++ String.ofList (List.replicate (width - s.length) ' ')

def fieldsText : List (Datum × Datum) → String
  | [] => ""
  | fields => " (" ++ ", ".intercalate (fields.map fun (k, v) => k.plain ++ "=" ++ v.plain) ++ ")"

def Record.readableText (r : Record) : String :=
  padRight 7 (levelName r.level) ++ " [" ++ ((r.className.map Datum.plain).getD "-") ++ "] "
    ++ r.logger ++ ": " ++ r.message ++ fieldsText (r.fields.getD [])
    ++ (match r.failure with
      | some text => "\n" ++ text
      | none => "")

def Record.text (layout : Layout) (time : String) (r : Record) : Except Json.WriteError String :=
  match layout with
  | .json => r.jsonText time
  | .readable => .ok r.readableText

section message

open Text.Percent

def valuesFor (table : Option (List (Datum × Datum))) (key : Key) (values : List Datum) :
    Except Fault (List Datum) :=
  match key, table with
  | .absent, _ => .ok values
  | _, none => .error .noMapping
  | .unclosed, some _ => .error .incompleteKey
  | .named name, some entries =>
    match entries.find? fun (k, _) => k.same (.text name) with
    | some (_, v) => .ok [v]
    | none => .error (.missing name)

def scalar (d : Datum) : Scalar :=
  match d, d.number? with
  | .text s, _ => .text s
  | _, some n => .number n
  | d, none => .other d.kind

def fill (c : Conversion) (d : Datum) : Except Fault String :=
  match c.sign with
  | 's' => .ok (c.fillText d.plain)
  | 'r' => .ok (c.fillText d.quoted)
  | 'a' => .ok (c.fillText (Text.asciiOnly d.quoted))
  | _ => c.fill (scalar d)

def fillAll (table : Option (List (Datum × Datum))) : List Datum → List Piece → Except Fault String
  | values, [] => if values.isEmpty || table.isSome then .ok "" else .error .tooMany
  | values, .text s :: rest => do return String.ofList s ++ (← fillAll table values rest)
  | values, .field f :: rest => do
    let (c, values) ← f.settle Datum.int? (← valuesFor table f.key values)
    match values with
    | [] => throw .tooFew
    | v :: values =>
      let s ← fill c v
      return s ++ (← fillAll table values rest)

/-- The message of a template and its arguments; without arguments the template is the message. -/
def message (template : String) (arguments : List Datum) : Except Fault String :=
  match arguments with
  | [] => .ok template
  | [.table (e :: es)] => fillAll (some (e :: es)) [.table (e :: es)] (pieces template)
  | _ => fillAll none arguments (pieces template)

end message

end Stencil.Log
