import Stencil.Json.Read
import Stencil.Json.Text
import Stencil.Script.Exchange
import Stencil.Script.Routine.Basic
import Stencil.Text.Markup

/-!
The services of the library's modules: JSON, markup, warnings, and the base class of templates.
-/

namespace Stencil.Script.Service

open Run

/-! JSON. -/

structure JsonStyle where
  ascii : Bool := true
  indent : Option String := none
  itemMark : String := ", "
  keyMark : String := ": "
  sorted : Bool := false
  skipKeys : Bool := false
  fallback : Value := .none

def wideQuote (s : String) : String :=
  String.ofList ('"' :: s.toList.flatMap (fun c =>
    if c.toNat < 0x7F then Json.escapeChar c else [c]) ++ ['"'])

def quoteIn (st : JsonStyle) (s : String) : String :=
  if st.ascii then Json.quote s else wideQuote s

def keyText (st : JsonStyle) (k : Value) : Run (Option String) := do
  match k with
  | .text s => return some s
  | .none => return some "null"
  | .bool b => return some (if b then "true" else "false")
  | .int i => return some (toString i)
  | .float x => return some (Decimal.Layout.json.text x)
  | k =>
    if st.skipKeys then return none
    else typeError (Json.WriteError.key (← kindOf k)).message

def enclose (st : JsonStyle) (level : Nat) (opening closing : String) (parts : List String) :
    String :=
  if parts.isEmpty then opening ++ closing
  else
    match st.indent with
    | none => opening ++ st.itemMark.intercalate parts ++ closing
    | some unit =>
      let line := fun (n : Nat) => "\n" ++ String.join (List.replicate n unit)
      opening ++ line (level + 1) ++ (st.itemMark ++ line (level + 1)).intercalate parts
        ++ line level ++ closing

def jsonText (d : Deeper) (st : JsonStyle) : Nat → Nat → Value → Run String
  | 0, _, _ => valueError "Circular reference detected"
  | fuel + 1, level, v =>
    let rec items : List Value → Run (List String)
      | [] => return []
      | v :: vs => do return (← jsonText d st fuel (level + 1) v) :: (← items vs)
    let rec entries : List (Value × Value) → Run (List (String × String))
      | [] => return []
      | (k, v) :: rest => do
        match ← keyText st k with
        | none => entries rest
        | some name => return (name, ← jsonText d st fuel (level + 1) v) :: (← entries rest)
    let refuse := do
      match st.fallback with
      | .none => typeError (Json.WriteError.value (← kindOf v)).message
      | f => do jsonText d st fuel level (← d.call f [v] [])
    match v with
    | .none => return "null"
    | .bool b => return if b then "true" else "false"
    | .int i => return toString i
    | .float x => return Decimal.Layout.json.text x
    | .text s => return quoteIn st s
    | .tuple vs => do return enclose st level "[" "]" (← items vs)
    | .object ref => do
      let o ← object ref
      match o with
      | .list vs => return enclose st level "[" "]" (← items vs)
      | .dict _ | .attributesOf _ =>
        let es ← entries (← entriesOf o)
        let es := if st.sorted then es.mergeSort fun a b => a.1 ≤ b.1 else es
        return enclose st level "\x7b" "\x7d" (es.map fun (k, v) => quoteIn st k ++ st.keyMark ++ v)
      | _ => refuse
    | _ => refuse

def jsonStyle (d : Deeper) (named : List (String × Value)) : Run JsonStyle := do
  let flag := fun (name : String) (otherwise : Bool) => do
    match named.lookup name with
    | some v => truth d v
    | none => pure otherwise
  let indent ← match named.lookup "indent" with
    | none | some .none => pure none
    | some (.text s) => pure (some s)
    | some v => do pure (some (String.ofList (List.replicate (← TextMethods.needInt v).toNat ' ')))
  let marks ← match named.lookup "separators" with
    | none | some .none => pure (if indent.isSome then "," else ", ", ": ")
    | some v => do
      match ← itemsOf d v with
      | [.text a, .text b] => pure (a, b)
      | _ => valueError "not enough values to unpack (expected 2, got 1)"
  return { ascii := ← flag "ensure_ascii" true, indent, itemMark := marks.1, keyMark := marks.2,
           sorted := ← flag "sort_keys" false, skipKeys := ← flag "skipkeys" false,
           fallback := (named.lookup "default").getD .none }

def jsonDepth : Nat := 300

def dumps (d : Deeper) (args : List Value) (named : List (String × Value)) : Run Value := do
  match args with
  | [v] => return .text (← jsonText d (← jsonStyle d named) jsonDepth 0 v)
  | [] => typeError "dumps() missing 1 required positional argument: 'obj'"
  | _ =>
    typeError ("dumps() takes 1 positional argument but " ++ toString args.length ++ " were given")

def loadText (s : String) : Run Value := do
  match Json.read s with
  | .ok datum => ofDatum datum
  | .error e =>
    let ref ← alloc (.error (.library "json.decoder.JSONDecodeError") [.text (e.message s)] {} [])
    throw (.raised ref false)

def loads (args : List Value) : Run Value := do
  match args with
  | .text s :: _ => loadText s
  | .bytes bs :: _ =>
    match String.fromUTF8? ⟨bs.toArray⟩ with
    | some s => loadText s
    | none => raise "UnicodeDecodeError" "'utf-8' codec can't decode bytes"
  | v :: _ =>
    typeError ("the JSON object must be str, bytes or bytearray, not " ++ (← kindOf v))
  | [] => typeError "loads() missing 1 required positional argument: 's'"

/-! Markup. -/

def withoutQuotes (s : String) : String :=
  String.ofList (s.toList.flatMap fun c =>
    if c == '"' || c == '\'' then [c] else Text.escapeChar c)

def escape (d : Deeper) (args : List Value) (named : List (String × Value)) : Run Value := do
  let b ← (Signature.mk "escape" ["s", "quote"] 0 none [] none).bind
    (.ofList [("quote", .bool true)]) args named
  match (b.get? "s").getD .none with
  | .text s =>
    if ← truth d ((b.get? "quote").getD .none) then return .text (Text.escapeMarkup s)
    else return .text (withoutQuotes s)
  | v => noAttribute v "replace"

def entities : List (List Char × Char) :=
  [("&lt;".toList, '<'), ("&gt;".toList, '>'), ("&quot;".toList, '"'), ("&#x27;".toList, '\''),
   ("&#39;".toList, '\''), ("&amp;".toList, '&')]

def unescape : Nat → List Char → List Char
  | 0, s => s
  | _, [] => []
  | fuel + 1, c :: rest =>
    match entities.find? fun (e, _) => e.isPrefixOf (c :: rest) with
    | some (e, plain) => plain :: unescape fuel ((c :: rest).drop e.length)
    | none => c :: unescape fuel rest

/-! Warnings. -/

/-- The category of a warning that code gives, which a message that is a warning has in itself. -/
def categoryOf (message category : Value) : Run Value := do
  let c ← classOf message
  if ← derives c (.builtin "Warning") then return .cls c
  match category with
  | .none => return .cls (.builtin "UserWarning")
  | .cls k =>
    if ← derives k (.builtin "Warning") then return .cls k
    else typeError ("category must be a Warning subclass, not '" ++ (← kindOf category) ++ "'")
  | v => typeError ("category must be a Warning subclass, not '" ++ (← kindOf v) ++ "'")

/-- The category and the message that a warning has in the end. A message that is a warning is asked
for its text; of all others the category makes one. -/
def messageOf (d : Deeper) (category message : Value) : Run (ClassRef × Value) := do
  let c ← classOf message
  if ← derives c (.builtin "Warning") then
    let _ ← plainStep d message
    return (c, message)
  let made := d.call category [message] []
  match category, message with
  | .cls (.library name), .text s =>
    if ← derives (.library name) (.builtin "Warning") then return (.library name, .text s)
    else return (.library name, ← made)
  | .cls k, _ => return (k, ← made)
  | _, _ =>
    let _ ← made
    typeError "issubclass() arg 1 must be a class"

def actionFor (kind : ClassRef) (line : Int) : List Filter → Run Action
  | [] => return .note
  | f :: rest => do
    if (← derives kind f.category) && (f.line == 0 || f.line == line) then return f.action
    else actionFor kind line rest

def raiseWarning (w : Issued) : Run Unit := do
  match w.message with
  | .object ref => throw (.raised ref false)
  | v =>
    let ref ← alloc (.error w.kind [v] {} [])
    throw (.raised ref false)

def filtered (w : Issued) : Run Unit := do
  match ← actionFor w.kind w.line (← get).filters with
  | .note => note w
  | .drop => pure ()
  | .raise => raiseWarning w

def present (d : Deeper) (category message : Value) (file : String) (line : Int) : Run Unit := do
  let (kind, message) ← messageOf d category message
  filtered ⟨kind, message, file, line⟩

/-- Issues a warning once more; its message, which is one already, is asked for its text. -/
def again (d : Deeper) (w : Issued) : Run Unit := do
  let _ ← plainStep d w.message
  filtered w

def warn (d : Deeper) (args : List Value) (named : List (String × Value)) : Run Value := do
  let given ← arguments ⟨"warn", ["message", "category", "stacklevel", "source"], 1, 0⟩ args named
  let message := (argument given 0).getD .none
  let level ← match argument given 2 with
    | some v => TextMethods.needInt v
    | none => pure 1
  let category ← categoryOf message ((argument given 1).getD .none)
  match (← get).calls[(max level 1).toNat - 1]? with
  | some mark => present d category message mark.file mark.line
  | none => present d category message "sys" 1
  return .none

def warnExplicit (d : Deeper) (args : List Value) (named : List (String × Value)) : Run Value := do
  let given ← arguments ⟨"warn_explicit",
    ["message", "category", "filename", "lineno", "module", "registry", "module_globals", "source"],
    4, 0⟩ args named
  let file ← match argument given 2 with
    | some (.text s) => pure s
    | some v => do typeError ("warn_explicit() argument 3 must be str, not " ++ (← kindOf v))
    | none => pure ""
  let line ← TextMethods.needInt ((argument given 3).getD (.int 0))
  present d ((argument given 1).getD .none) ((argument given 0).getD .none) file line
  return .none

/-! Templates. -/

def templateMark (line : Nat) : Run Mark := do
  return ⟨(← get).folders.own ++ "/templates/base.py", line, 0⟩

def inTemplate {α : Type} (line : Nat) (code : Run α) : Run α := do
  let mark ← templateMark line
  within mark (placing mark code)

def templateSignature (method : String) (parameters : List String) : Signature :=
  ⟨"TemplateBase." ++ method, "self" :: parameters, 0, none, [], none⟩

def append (d : Deeper) (self text : Value) : Run Value := do
  let buffer ← getMember d self "_buffer"
  let _ ← d.call (← getMember d buffer "append") [text] []
  return .none

def template (method : String) (d : Deeper) (args : List Value) (named : List (String × Value)) :
    Run Value := do
  let names := match method with
    | "write" => ["value"]
    | "write_literal" => ["text"]
    | "run" => ["model"]
    | _ => []
  let b ← (templateSignature method names).bind (if method == "run" then .ofList [("model", .none)]
    else {}) args named
  let self := (b.get? "self").getD .none
  leavingCall do
    match method with
    | "__init__" => inTemplate 32 do
      setMember d self "model" .none
      setMember d self "_buffer" (← newList [])
      return .none
    | "write" =>
      match (b.get? "value").getD .none with
      | .none => return .none
      | v => inTemplate 40 do
        let text ← d.call (.cls (.builtin "str")) [v] []
        append d self (← escape d [text] [])
    | "write_literal" => inTemplate 44 (append d self ((b.get? "text").getD .none))
    | "run" => do
      inTemplate 48 do
        setMember d self "model" ((b.get? "model").getD .none)
        setMember d self "_buffer" (← newList [])
      let _ ← inTemplate 50 do d.call (← getMember d self "execute") [] []
      inTemplate 51 do return .text (← TextMethods.join d "" (← getMember d self "_buffer"))
    | _ => return .none

/-! The rest. -/

def typing (name : String) (args : List Value) : Run Value := do
  match name, args with
  | "cast", [_, v] => return v
  | "final", [v] | "no_type_check", [v] | "overload", [v] | "runtime_checkable", [v] => return v
  | _, _ => raise "NotImplementedError" ("typing." ++ name)

def mark (d : Deeper) (args : List Value) : Run Value := do
  match args with
  | [f] => do
    setMember d f "__isabstractmethod__" (.bool true)
    return f
  | _ => typeError "abstractmethod() missing 1 required positional argument: 'funcobj'"

end Stencil.Script.Service
