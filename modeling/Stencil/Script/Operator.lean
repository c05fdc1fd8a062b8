import Stencil.Script.Compare
import Stencil.Text.Percent

/-!
Operators on values: arithmetic on numbers, joining and repeating of sequences, the operations of
sets and dicts, and text templates with percent fields. What is not defined by the kinds themselves
can be defined by source, from the left or from the right.
-/

namespace Stencil.Script

def BinaryOp.sign : BinaryOp → String
  | add => "+"
  | sub => "-"
  | mul => "*"
  | divide => "/"
  | floorDivide => "//"
  | mod => "%"
  | power => "** or pow()"
  | matrix => "@"
  | bitAnd => "&"
  | bitOr => "|"
  | bitXor => "^"
  | shiftLeft => "<<"
  | shiftRight => ">>"

def BinaryOp.stem : BinaryOp → String
  | add => "add"
  | sub => "sub"
  | mul => "mul"
  | divide => "truediv"
  | floorDivide => "floordiv"
  | mod => "mod"
  | power => "pow"
  | matrix => "matmul"
  | bitAnd => "and"
  | bitOr => "or"
  | bitXor => "xor"
  | shiftLeft => "lshift"
  | shiftRight => "rshift"

def BinaryOp.changing : BinaryOp → String
  | power => "**="
  | op => op.sign ++ "="

namespace Run

def combineBits (f : Bool → Bool → Bool) (a b : Int) : Int :=
  let width := (max a.natAbs b.natAbs).log2 + 2
  let bit := fun (i : Int) (k : Nat) => Int.emod (Int.fdiv i (Int.pow 2 k)) 2 == 1
  let value : Nat := (List.range width).foldl
    (fun v k => if f (bit a k) (bit b k) then v + Nat.pow 2 k else v) 0
  if f (a < 0) (b < 0) then (value : Int) - Int.pow 2 width else value

def onNumbers (op : BinaryOp) (x y : Number) : Run (Option Value) := do
  match op, x, y with
  | .add, _, _ => return some (← ofArithmetic (x.add y))
  | .sub, _, _ => return some (← ofArithmetic (x.sub y))
  | .mul, _, _ => return some (← ofArithmetic (x.mul y))
  | .divide, _, _ => return some (← ofArithmetic (x.divide y))
  | .floorDivide, _, _ => return some (← ofArithmetic (x.floorDiv y))
  | .mod, _, _ => return some (← ofArithmetic (x.mod y))
  | .power, _, _ => return some (← ofArithmetic (x.pow y))
  | .bitAnd, .int a, .int b => return some (.int (combineBits and a b))
  | .bitOr, .int a, .int b => return some (.int (combineBits or a b))
  | .bitXor, .int a, .int b => return some (.int (combineBits xor a b))
  | .shiftLeft, .int a, .int b =>
    if b < 0 then valueError "negative shift count"
    else return some (.int (a * Int.pow 2 b.toNat))
  | .shiftRight, .int a, .int b =>
    if b < 0 then valueError "negative shift count"
    else return some (.int (Int.fdiv a (Int.pow 2 b.toNat)))
  | _, _, _ => return none

def onTruths (op : BinaryOp) (a b : Bool) : Option Value :=
  match op with
  | .bitAnd => some (.bool (a && b))
  | .bitOr => some (.bool (a || b))
  | .bitXor => some (.bool (xor a b))
  | _ => none

def timesText (s : String) (n : Int) : String :=
  String.join (List.replicate n.toNat s)

def timesList {α : Type} (items : List α) (n : Int) : List α :=
  (List.replicate n.toNat items).flatten

/-! Percent templates. -/

open Text.Percent

def refuseField {α : Type} (f : Fault) : Run α :=
  match f with
  | .missing key => raiseOf "KeyError" [.text key]
  | f => raise f.kind f.message

def ofFilling {α : Type} (r : Except Fault α) : Run α :=
  match r with
  | .ok a => return a
  | .error f => refuseField f

def fillField (d : Deeper) (c : Conversion) (v : Value) : Run String := do
  match c.sign with
  | 's' => return c.fillText (← plainStep d v)
  | 'r' => return c.fillText (← d.quoted v)
  | 'a' => return c.fillText (Text.asciiOnly (← d.quoted v))
  | _ =>
    match v, v.number? with
    | .text s, _ => ofFilling (c.fill (.text s))
    | _, some n => ofFilling (c.fill (.number n))
    | v, none => ofFilling (c.fill (.other (← kindOf v)))

/-- The values for a field: all that are left, or the one that a dict has under its name. -/
def valuesFor (d : Deeper) (table : Option (List (Value × Value))) (key : Key) (values : List Value) :
    Run (List Value) := do
  match key, table with
  | .absent, _ => return values
  | _, none => refuseField .noMapping
  | .unclosed, some _ => refuseField .incompleteKey
  | .named name, some entries =>
    match ← findEntry d (.text name) entries with
    | some v => return [v]
    | none => refuseField (.missing name)

def fillPieces (d : Deeper) (table : Option (List (Value × Value))) :
    List Value → List Piece → Run (String × List Value)
  | values, [] => return ("", values)
  | values, .text s :: rest => do
    let (more, left) ← fillPieces d table values rest
    return (String.ofList s ++ more, left)
  | values, .field f :: rest => do
    let (c, values) ← ofFilling (f.settle Value.integer? (← valuesFor d table f.key values))
    match values with
    | [] => refuseField .tooFew
    | v :: values =>
      let here ← fillField d c v
      let (more, left) ← fillPieces d table values rest
      return (here ++ more, left)

/-- Whether a value that is neither text nor a tuple has items by key: it may be left unused. -/
def hasItems (v : Value) : Run Bool := do
  match v with
  | .bytes _ | .range _ _ _ => return true
  | .object ref =>
    match ← object ref with
    | .list _ | .dict _ | .attributesOf _ => return true
    | .instance _ _ => return (← definedMethod? v "__getitem__").isSome
    | _ => return false
  | _ => return false

def percent (d : Deeper) (template : String) (v : Value) : Run Value := do
  let table ← match v with
    | .object ref =>
      match ← object ref with
      | o@(.dict _) | o@(.attributesOf _) => pure (some (← entriesOf o))
      | _ => pure none
    | _ => pure none
  let values := match v with
    | .tuple items => items
    | v => [v]
  let (text, left) ← fillPieces d table values (pieces template)
  if left.isEmpty || (← hasItems v) then return .text text else refuseField .tooMany

/-! The operators. -/

def unsupported {α : Type} (sign : String) (a b : Value) : Run α := do
  typeError ("unsupported operand type(s) for " ++ sign ++ ": '" ++ (← kindOf a) ++ "' and '"
    ++ (← kindOf b) ++ "'")

def byMethod (d : Deeper) (self other : Value) (name : String) : Run (Option Value) := do
  match ← definedMethod? self name with
  | none => return none
  | some f =>
    match ← d.call f [self, other] [] with
    | .notImplemented => return none
    | r => return some r

def setOf? (v : Value) : Run (Option (Bool × List Value)) := do
  match v with
  | .object ref =>
    match ← object ref with
    | .set frozen items => return some (frozen, items)
    | _ => return none
  | _ => return none

def without (d : Deeper) (others : List Value) : List Value → Run (List Value)
  | [] => return []
  | v :: vs => do
    if ← isAmong d v others then without d others vs
    else return v :: (← without d others vs)

def common (d : Deeper) (others : List Value) : List Value → Run (List Value)
  | [] => return []
  | v :: vs => do
    if ← isAmong d v others then return v :: (← common d others vs)
    else common d others vs

def onSets (d : Deeper) (op : BinaryOp) (frozen : Bool) (as bs : List Value) :
    Run (Option Value) := do
  match op with
  | .bitAnd => return some (← new (.set frozen (← common d bs as)))
  | .bitOr => return some (← new (.set frozen (as ++ (← without d as bs))))
  | .sub => return some (← new (.set frozen (← without d bs as)))
  | .bitXor => return some (← new (.set frozen ((← without d bs as) ++ (← without d as bs))))
  | _ => return none

def isTypeLike (v : Value) : Bool :=
  match v with
  | .cls _ | .aliasOf _ _ | .form _ | .none => true
  | _ => false

def byKind (d : Deeper) (op : BinaryOp) (a b : Value) : Run (Option Value) := do
  match a, b with
  | .bool x, .bool y =>
    match onTruths op x y with
    | some v => return some v
    | none => onNumbers op (.int (if x then 1 else 0)) (.int (if y then 1 else 0))
  | _, _ =>
    match a.number?, b.number? with
    | some x, some y => onNumbers op x y
    | _, _ =>
      match op, a, b with
      | .add, .text s, .text t => return some (.text (s ++ t))
      | .add, .bytes s, .bytes t => return some (.bytes (s ++ t))
      | .add, .tuple s, .tuple t => return some (.tuple (s ++ t))
      | .mod, .text s, v => return some (← percent d s v)
      | .bitOr, a, b =>
        if isTypeLike a && isTypeLike b && !(Value.identical a .none && Value.identical b .none) then
          let members := fun (v : Value) => match v with
            | .aliasOf (.form "|") ms => ms
            | v => [v]
          let all := (members a ++ members b).foldl
            (fun kept v => if kept.any (Value.identical v) then kept else kept ++ [v]) []
          match all with
          | [v] => return some v
          | vs => return some (.aliasOf (.form "|") vs)
        else
          match ← setOf? a, ← setOf? b with
          | some (frozen, x), some (_, y) => onSets d op frozen x y
          | _, _ =>
            match a, b with
            | .object x, .object y =>
              match ← object x, ← object y with
              | .dict es, .dict fs => return some (← new (.dict (← putEntries d es fs)))
              | _, _ => return none
            | _, _ => return none
      | _, _, _ =>
        match ← setOf? a, ← setOf? b with
        | some (frozen, x), some (_, y) => onSets d op frozen x y
        | _, _ =>
          match op, a, b with
          | .add, .object x, .object y =>
            match ← object x, ← object y with
            | .list s, .list t => return some (← newList (s ++ t))
            | _, _ => return none
          | _, _, _ => return none

/-- The copies of a sequence that a product asks for; none if neither side is a sequence. -/
def repeated (a b : Value) : Run (Option Value) := do
  let times := fun (s n : Value) => do
    let count : Run (Option Int) := do
      match n.integer? with
      | some i => return some i
      | none => return none
    match s with
    | .text t => match ← count with
      | some i => return some (Value.text (timesText t i))
      | none => return none
    | .bytes bs => match ← count with
      | some i => return some (.bytes (timesList bs i))
      | none => return none
    | .tuple items => match ← count with
      | some i => return some (.tuple (timesList items i))
      | none => return none
    | .object ref =>
      match ← object ref with
      | .list items => match ← count with
        | some i => return some (← newList (timesList items i))
        | none => return none
      | _ => return none
    | _ => return none
  match ← times a b with
  | some v => return some v
  | none => times b a

def isSequence (v : Value) : Run Bool := do
  match v with
  | .text _ | .bytes _ | .tuple _ => return true
  | .object ref =>
    match ← object ref with
    | .list _ => return true
    | _ => return false
  | _ => return false

def refuse {α : Type} (op : BinaryOp) (sign : String) (a b : Value) : Run α := do
  match op with
  | .add =>
    match a with
    | .text _ => typeError ("can only concatenate str (not \"" ++ (← kindOf b) ++ "\") to str")
    | .bytes _ => typeError ("can't concat " ++ (← kindOf b) ++ " to bytes")
    | .tuple _ => typeError ("can only concatenate tuple (not \"" ++ (← kindOf b) ++ "\") to tuple")
    | .object ref =>
      match ← object ref with
      | .list _ =>
        typeError ("can only concatenate list (not \"" ++ (← kindOf b) ++ "\") to list")
      | _ => unsupported sign a b
    | _ => unsupported sign a b
  | .mul =>
    if ← isSequence a then
      typeError ("can't multiply sequence by non-int of type '" ++ (← kindOf b) ++ "'")
    else if ← isSequence b then
      typeError ("can't multiply sequence by non-int of type '" ++ (← kindOf a) ++ "'")
    else unsupported sign a b
  | _ => unsupported sign a b

def binary (d : Deeper) (op : BinaryOp) (sign : String) (a b : Value) : Run Value := do
  match ← byMethod d a b ("__" ++ op.stem ++ "__") with
  | some v => return v
  | none =>
    match ← byMethod d b a ("__r" ++ op.stem ++ "__") with
    | some v => return v
    | none =>
      match ← byKind d op a b with
      | some v => return v
      | none =>
        if op == .mul then
          match ← repeated a b with
          | some v => return v
          | none => refuse op sign a b
        else refuse op sign a b

def unary (d : Deeper) (op : UnaryOp) (v : Value) : Run Value := do
  let undefined := fun (sign method : String) => do
    match ← definedMethod? v method with
    | some f => d.call f [v] []
    | none => typeError ("bad operand type for unary " ++ sign ++ ": '" ++ (← kindOf v) ++ "'")
  match op with
  | .not => return .bool !(← truth d v)
  | .negative =>
    match v.number? with
    | some n => return Value.ofNumber n.neg
    | none => undefined "-" "__neg__"
  | .positive =>
    match v.number? with
    | some n => return Value.ofNumber n
    | none => undefined "+" "__pos__"
  | .invert =>
    match v.integer? with
    | some i => return .int (-i - 1)
    | none => undefined "~" "__invert__"

end Run

end Stencil.Script
