import Stencil.Script.Shown

/-!
Comparing values: identity, equality, order and truth, and which values can be keys. Numbers compare
by value whatever their kind; containers compare item by item; source can define equality, order and
truth for instances of its classes.
-/

namespace Stencil.Script

mutual

/-- Whether two values are one and the same. Values without a place on the heap are the same when
nothing tells them apart. -/
def Value.identical : Value → Value → Bool
  | .none, .none => true
  | .ellipsis, .ellipsis => true
  | .notImplemented, .notImplemented => true
  | .bool a, .bool b => a == b
  | .int a, .int b => a == b
  | .float a, .float b => a.toBits == b.toBits
  | .text a, .text b => a == b
  | .bytes a, .bytes b => a == b
  | .tuple as, .tuple bs => Value.identicalAll as bs
  | .range a b c, .range d e f => a == d && b == e && c == f
  | .cls a, .cls b => a == b
  | .routine a, .routine b => a == b
  | .form a, .form b => a == b
  | .aliasOf a as, .aliasOf b bs => Value.identical a b && Value.identicalAll as bs
  | .object a, .object b => a == b
  | _, _ => false

def Value.identicalAll : List Value → List Value → Bool
  | [], [] => true
  | a :: as, b :: bs => Value.identical a b && Value.identicalAll as bs
  | _, _ => false

end

namespace Run

def truth (d : Deeper) (v : Value) : Run Bool := do
  match v with
  | .none => return false
  | .bool b => return b
  | .int i => return i != 0
  | .float x => return x != 0.0
  | .text s => return s != ""
  | .bytes bs => return !bs.isEmpty
  | .tuple items => return !items.isEmpty
  | .range a b c => return if 0 < c then a < b else b < a
  | .object ref =>
    let o ← object ref
    match o with
    | .list items | .set _ items => return !items.isEmpty
    | .dict _ | .attributesOf _ => return !(← entriesOf o).isEmpty
    | .instance _ _ =>
      match ← definedMethod? v "__bool__" with
      | some f =>
        match ← d.call f [v] [] with
        | .bool b => return b
        | r => typeError ("__bool__ should return bool, returned " ++ (← kindOf r))
      | none =>
        match ← definedMethod? v "__len__" with
        | some f =>
          match (← d.call f [v] []).integer? with
          | some n => return n != 0
          | none => return true
        | none => return true
    | _ => return true
  | _ => return true

def sameAll (d : Deeper) : List Value → List Value → Run Bool
  | [], [] => return true
  | a :: as, b :: bs => do
    if Value.identical a b then sameAll d as bs
    else if ← d.same a b then sameAll d as bs
    else return false
  | _, _ => return false

def findEntry (d : Deeper) (key : Value) : List (Value × Value) → Run (Option Value)
  | [] => return none
  | (k, v) :: rest => do
    if Value.identical k key then return some v
    else if ← d.same k key then return some v
    else findEntry d key rest

def isAmong (d : Deeper) (v : Value) : List Value → Run Bool
  | [] => return false
  | a :: as => do
    if Value.identical a v then return true
    else if ← d.same a v then return true
    else isAmong d v as

def allAmong (d : Deeper) (bs : List Value) : List Value → Run Bool
  | [] => return true
  | a :: as => do if ← isAmong d a bs then allAmong d bs as else return false

def sameEntries (d : Deeper) (other : List (Value × Value)) : List (Value × Value) → Run Bool
  | [] => return true
  | (k, v) :: rest => do
    match ← findEntry d k other with
    | none => return false
    | some w =>
      if Value.identical v w then sameEntries d other rest
      else if ← d.same v w then sameEntries d other rest
      else return false

def sameObjects (d : Deeper) (a b : Nat) : Run Bool := do
  if a == b then return true
  let x ← object a
  let y ← object b
  match x, y with
  | .list as, .list bs => if as.length == bs.length then sameAll d as bs else return false
  | .set _ as, .set _ bs => if as.length == bs.length then allAmong d bs as else return false
  | .method s f, .method t g => return Value.identical s t && Value.identical f g
  | _, _ =>
    let isTable := fun (o : Object) => match o with
      | .dict _ | .attributesOf _ => true
      | _ => false
    if isTable x && isTable y then
      let es ← entriesOf x
      let fs ← entriesOf y
      if es.length == fs.length then sameEntries d fs es else return false
    else return false

def plainSame (d : Deeper) (a b : Value) : Run Bool := do
  match a.number?, b.number? with
  | some x, some y => return x.eq y
  | _, _ =>
    match a, b with
    | .tuple as, .tuple bs => if as.length == bs.length then sameAll d as bs else return false
    | .object x, .object y => sameObjects d x y
    | .bound s f, .bound t g => return Value.identical s t && f == g
    | a, b => return Value.identical a b

def equal (d : Deeper) (a b : Value) : Run Value := do
  let attempt := fun (x y : Value) => do
    match ← definedMethod? x "__eq__" with
    | some f =>
      match ← d.call f [x, y] [] with
      | .notImplemented => return (none : Option Value)
      | r => return some r
    | none => return none
  match ← attempt a b with
  | some r => return r
  | none =>
    match ← attempt b a with
    | some r => return r
    | none => return .bool (← plainSame d a b)

def sameStep (d : Deeper) (a b : Value) : Run Bool := do truth d (← equal d a b)

def unequal (d : Deeper) (a b : Value) : Run Value := do
  match ← definedMethod? a "__ne__" with
  | some f =>
    match ← d.call f [a, b] [] with
    | .notImplemented => return .bool !(← truth d (← equal d a b))
    | r => return r
  | none => return .bool !(← truth d (← equal d a b))

/-- How an order test is written, which method defines it, and which one does so from the right. -/
structure OrderTest where
  sign : String
  method : String
  reflected : String
  /-- Which outcomes satisfy it. -/
  holds : Ordering → Bool

def OrderTest.less : OrderTest := ⟨"<", "__lt__", "__gt__", fun o => o == .lt⟩
def OrderTest.atMost : OrderTest := ⟨"<=", "__le__", "__ge__", fun o => o != .gt⟩
def OrderTest.greater : OrderTest := ⟨">", "__gt__", "__lt__", fun o => o == .gt⟩
def OrderTest.atLeast : OrderTest := ⟨">=", "__ge__", "__le__", fun o => o != .lt⟩

def compareBytes : List UInt8 → List UInt8 → Ordering
  | [], [] => .eq
  | [], _ => .lt
  | _, [] => .gt
  | a :: as, b :: bs => if a < b then .lt else if b < a then .gt else compareBytes as bs

def notOrdered {α : Type} (t : OrderTest) (a b : Value) : Run α := do
  typeError ("'" ++ t.sign ++ "' not supported between instances of '" ++ (← kindOf a)
    ++ "' and '" ++ (← kindOf b) ++ "'")

def firstDifference (d : Deeper) : List Value → List Value → Run (Ordering ⊕ (Value × Value))
  | [], [] => return .inl .eq
  | [], _ => return .inl .lt
  | _, [] => return .inl .gt
  | a :: as, b :: bs => do
    if Value.identical a b then firstDifference d as bs
    else if ← d.same a b then firstDifference d as bs
    else return .inr (a, b)

/-- The value of an order test; items of sequences are compared one call deeper. -/
def ordered (d : Deeper) (t : OrderTest) (a b : Value) : Run Value := do
  let sequences := fun (as bs : List Value) => do
    match ← firstDifference d as bs with
    | .inl o => return Value.bool (t.holds o)
    | .inr (x, y) => d.call (.routine ("operator." ++ t.sign)) [x, y] []
  let sets := fun (as bs : List Value) => do
    let within ← allAmong d bs as
    let around ← allAmong d as bs
    return Value.bool (match within, around with
      | true, true => t.holds .eq
      | true, false => t.sign == "<" || t.sign == "<="
      | false, true => t.sign == ">" || t.sign == ">="
      | false, false => false)
  match a.number?, b.number? with
  | some x, some y =>
    return .bool (match x.compare? y with
      | some o => t.holds o
      | none => false)
  | _, _ =>
    match a, b with
    | .text s, .text u => return .bool (t.holds (compare s u))
    | .bytes s, .bytes u => return .bool (t.holds (compareBytes s u))
    | .tuple as, .tuple bs => sequences as bs
    | _, _ =>
      let attempt := fun (x y : Value) (name : String) => do
        match ← definedMethod? x name with
        | some f =>
          match ← d.call f [x, y] [] with
          | .notImplemented => return (none : Option Value)
          | r => return some r
        | none => return none
      match ← attempt a b t.method with
      | some r => return r
      | none =>
        match ← attempt b a t.reflected with
        | some r => return r
        | none =>
          match a, b with
          | .object x, .object y =>
            match ← object x, ← object y with
            | .list as, .list bs => sequences as bs
            | .set _ as, .set _ bs => sets as bs
            | _, _ => notOrdered t a b
          | _, _ => notOrdered t a b

mutual

def hashable : Value → Run Unit
  | .tuple items => hashableAll items
  | .object ref => do
    match ← object ref with
    | .list _ => typeError "unhashable type: 'list'"
    | .dict _ | .attributesOf _ => typeError "unhashable type: 'dict'"
    | .set false _ => typeError "unhashable type: 'set'"
    | .instance c _ =>
      match ← inheritedAttribute c "__eq__" with
      | some (.defined owner, _) =>
        match ← ownAttribute (.defined owner) "__hash__" with
        | some _ => pure ()
        | none => typeError ("unhashable type: '" ++ (← nameOf c) ++ "'")
      | _ => pure ()
    | _ => pure ()
  | .slice _ _ _ => typeError "unhashable type: 'slice'"
  | _ => pure ()

def hashableAll : List Value → Run Unit
  | [] => pure ()
  | v :: vs => do
    hashable v
    hashableAll vs

end

def putEntry (d : Deeper) (key value : Value) :
    List (Value × Value) → Run (List (Value × Value))
  | [] => return [(key, value)]
  | (k, v) :: rest => do
    if Value.identical k key then return (k, value) :: rest
    else if ← d.same k key then return (k, value) :: rest
    else return (k, v) :: (← putEntry d key value rest)

def putEntries (d : Deeper) (entries : List (Value × Value)) :
    List (Value × Value) → Run (List (Value × Value))
  | [] => return entries
  | (k, v) :: rest => do
    hashable k
    putEntries d (← putEntry d k v entries) rest

def dropEntry (d : Deeper) (key : Value) :
    List (Value × Value) → Run (Option (Value × List (Value × Value)))
  | [] => return none
  | (k, v) :: rest => do
    if ← (if Value.identical k key then pure true else d.same k key) then return some (v, rest)
    else return (← dropEntry d key rest).map fun (w, others) => (w, (k, v) :: others)

def distinct (d : Deeper) (kept : List Value) : List Value → Run (List Value)
  | [] => return kept.reverse
  | v :: vs => do
    hashable v
    if ← isAmong d v kept then distinct d kept vs else distinct d (v :: kept) vs

end Run

end Stencil.Script
