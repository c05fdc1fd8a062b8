import Stencil.Script.Operator

/-!
Items of values: going through them one by one, taking one or a range of them by key, and changing
them. A loop over a list sees what is appended meanwhile; a dict or a set must keep its size.
-/

namespace Stencil.Script

inductive Cursor where
  | items (rest : List Value)
  | list (ref index : Nat)
  /-- The rest of the keys or items of an object that must keep its size. -/
  | sized (kind : String) (ref count : Nat) (rest : List Value)
  | counting (next stop step : Int)
  | iterator (ref : Nat)
  | defined (iterator : Value)
  | indexed (sequence : Value) (index : Nat)

namespace Run

def stepLimit : Nat := 10000000

def characters (s : String) : List Value :=
  s.toList.map fun c => .text (String.singleton c)

structure Bounds where
  start : Int
  stop : Int
  step : Int

def sliceBound (v : Value) (absent : Int) (length lower upper : Int) : Run Int := do
  match v with
  | .none => return absent
  | v =>
    match v.integer? with
    | none =>
      typeError "slice indices must be integers or None or have an __index__ method"
    | some i =>
      let i := if i < 0 then i + length else i
      return max lower (min upper i)

def sliceBounds (length : Nat) (start stop step : Value) : Run Bounds := do
  let n : Int := length
  let step ← match step with
    | .none => pure 1
    | v =>
      match v.integer? with
      | some i => pure i
      | none =>
        typeError "slice indices must be integers or None or have an __index__ method"
  if step = 0 then valueError "slice step cannot be zero"
  let lower := if 0 < step then 0 else -1
  let upper := if 0 < step then n else n - 1
  let first ← sliceBound start (if 0 < step then lower else upper) n lower upper
  let last ← sliceBound stop (if 0 < step then upper else lower) n lower upper
  return ⟨first, last, step⟩

def rangeLength (start stop step : Int) : Nat :=
  if step = 0 then 0
  else if 0 < step then ((stop - start + step - 1) / step).toNat
  else ((start - stop + -step - 1) / (-step)).toNat

def rangeItems (start stop step : Int) : List Int :=
  (List.range (rangeLength start stop step)).map fun (k : Nat) => start + step * (k : Int)

def sliceItems {α : Type} (items : List α) (b : Bounds) : List α :=
  let all := items.toArray
  (rangeItems b.start b.stop b.step).filterMap fun i => all[i.toNat]?

def place? (length : Nat) (i : Int) : Option Nat :=
  if 0 ≤ i then (if i < length then some i.toNat else none)
  else if -i ≤ length then some (length - i.natAbs) else none

/-! Iteration. -/

def notIterable {α : Type} (v : Value) : Run α := do
  typeError ("'" ++ (← kindOf v) ++ "' object is not iterable")

def start (d : Deeper) (v : Value) : Run Cursor := do
  match v with
  | .text s => return .items (characters s)
  | .bytes bs => return .items (bs.map fun b => .int b.toNat)
  | .tuple items => return .items items
  | .range a b c => return .counting a b c
  | .object ref =>
    let o ← object ref
    match o with
    | .list _ => return .list ref 0
    | .dict es => return .sized "dictionary" ref es.length (es.map Prod.fst)
    | .attributesOf _ =>
      let es ← entriesOf o
      return .sized "dictionary" ref es.length (es.map Prod.fst)
    | .set _ items => return .sized "Set" ref items.length items
    | .iterator _ _ => return .iterator ref
    | .instance _ _ =>
      match ← definedMethod? v "__iter__" with
      | some f =>
        let it ← d.call f [v] []
        match it with
        | .object r =>
          match ← object r with
          | .iterator _ _ => return .iterator r
          | _ =>
            if (← definedMethod? it "__next__").isSome then return .defined it
            else
              typeError ("iter() returned non-iterator of type '" ++ (← kindOf it) ++ "'")
        | _ => typeError ("iter() returned non-iterator of type '" ++ (← kindOf it) ++ "'")
      | none =>
        if (← definedMethod? v "__getitem__").isSome then return .indexed v 0
        else notIterable v
    | _ => notIterable v
  | v => notIterable v

def nextOf (ref : Nat) : Run (Option Value) := do
  match ← object ref with
  | .iterator kind ⟨v :: rest, failure⟩ =>
    modifyHeap ref (.iterator kind ⟨rest, failure⟩)
    return some v
  | .iterator kind ⟨[], some error⟩ =>
    modifyHeap ref (.iterator kind ⟨[], none⟩)
    throw (.raised error false)
  | _ => return none

def untilRaised (kind : String) (code : Run Value) : Run (Option Value) :=
  handling (some <$> code) fun error => do
    match ← object error with
    | .error c _ _ _ =>
      if ← derives c (.builtin kind) then return none else throw (.raised error false)
    | _ => throw (.raised error false)

def advance (d : Deeper) (c : Cursor) : Run (Option (Value × Cursor)) := do
  match c with
  | .items [] => return none
  | .items (v :: rest) => return some (v, .items rest)
  | .list ref index =>
    match ← object ref with
    | .list items =>
      match items[index]? with
      | some v => return some (v, .list ref (index + 1))
      | none => return none
    | _ => return none
  | .sized kind ref count rest =>
    let now ← match ← object ref with
      | .set _ items => pure items.length
      | o => pure (← entriesOf o).length
    if now != count then raise "RuntimeError" (kind ++ " changed size during iteration")
    match rest with
    | [] => return none
    | v :: rest => return some (v, .sized kind ref count rest)
  | .counting next stop step =>
    if (0 < step && next < stop) || (step < 0 && stop < next) then
      return some (.int next, .counting (next + step) stop step)
    else return none
  | .iterator ref => return (← nextOf ref).map fun v => (v, c)
  | .defined it =>
    match ← definedMethod? it "__next__" with
    | none => return none
    | some f => return (← untilRaised "StopIteration" (d.call f [it] [])).map fun v => (v, c)
  | .indexed v index =>
    match ← definedMethod? v "__getitem__" with
    | none => return none
    | some f =>
      return (← untilRaised "IndexError" (d.call f [v, .int index] [])).map
        fun item => (item, .indexed v (index + 1))

def drain (d : Deeper) : Nat → Cursor → List Value → Run (List Value)
  | 0, _, _ => throw .exhausted
  | fuel + 1, c, taken => do
    match ← advance d c with
    | none => return taken
    | some (v, c) => drain d fuel c (v :: taken)

def itemsOf (d : Deeper) (v : Value) : Run (List Value) := do
  match v with
  | .tuple items => return items
  | .range a b c => return (rangeItems a b c).map .int
  | v =>
    match ← start d v with
    | .items rest => return rest
    | c => return (← drain d stepLimit c []).reverse

def remaining (d : Deeper) : Nat → Cursor → List Value → Run Remaining
  | 0, _, _ => throw .exhausted
  | fuel + 1, c, taken => do
    let step ← handling (Except.ok <$> advance d c) fun error => pure (Except.error error)
    match step with
    | .error error => return ⟨taken.reverse, some error⟩
    | .ok none => return ⟨taken.reverse, none⟩
    | .ok (some (v, c)) => remaining d fuel c (v :: taken)

def newIterator (kind : String) (items : List Value) : Run Value := new (.iterator kind ⟨items, none⟩)

/-! Taking items apart. -/

def unpack (d : Deeper) (count : Nat) (v : Value) : Run (List Value) := do
  let c ← handling (start d v) fun error => do
    match ← object error with
    | .error _ [.text message] _ _ =>
      if message.endsWith "object is not iterable" then
        typeError ("cannot unpack non-iterable " ++ (← kindOf v) ++ " object")
      else throw (.raised error false)
    | _ => throw (.raised error false)
  let rec take : Nat → Cursor → List Value → Run (List Value × Cursor)
    | 0, c, taken => return (taken.reverse, c)
    | n + 1, c, taken => do
      match ← advance d c with
      | some (v, c) => take n c (v :: taken)
      | none =>
        valueError ("not enough values to unpack (expected " ++ toString count ++ ", got "
          ++ toString taken.length ++ ")")
  let (items, c) ← take count c []
  match ← advance d c with
  | none => return items
  | some _ => valueError ("too many values to unpack (expected " ++ toString count ++ ")")

def unpackStar (d : Deeper) (before after : Nat) (v : Value) :
    Run (List Value × List Value × List Value) := do
  let items ← handling (itemsOf d v) fun error => do
    match ← object error with
    | .error _ [.text message] _ _ =>
      if message.endsWith "object is not iterable" then
        typeError ("cannot unpack non-iterable " ++ (← kindOf v) ++ " object")
      else throw (.raised error false)
    | _ => throw (.raised error false)
  if items.length < before + after then
    valueError ("not enough values to unpack (expected at least " ++ toString (before + after)
      ++ ", got " ++ toString items.length ++ ")")
  else
    return (items.take before, (items.drop before).take (items.length - before - after),
      items.drop (items.length - after))

/-! Items by key. -/

def badIndex {α : Type} (kind : String) (key : Value) : Run α := do
  let k ← kindOf key
  match kind with
  | "str" => typeError ("string indices must be integers, not '" ++ k ++ "'")
  | "bytes" => typeError ("byte indices must be integers or slices, not " ++ k)
  | _ => typeError (kind ++ " indices must be integers or slices, not " ++ k)

def outOfRange {α : Type} (kind : String) : Run α :=
  raise "IndexError" (match kind with
    | "str" => "string index out of range"
    | "bytes" => "index out of range"
    | "range" => "range object index out of range"
    | kind => kind ++ " index out of range")

def itemAt (kind : String) (items : List Value) (key : Value) : Run Value := do
  match key.integer? with
  | none => badIndex kind key
  | some i =>
    match (place? items.length i).bind fun k => items[k]? with
    | some v => return v
    | none => outOfRange kind

def joinText (items : List Value) : String :=
  String.join (items.map fun
    | .text s => s
    | _ => "")

def byteItems (items : List Value) : List UInt8 :=
  items.map fun
    | .int i => UInt8.ofNat i.toNat
    | _ => 0

/-- An item or a slice of a sequence, which is built again from a slice of its items. -/
def sequenceItem (kind : String) (items : List Value) (key : Value)
    (build : List Value → Run Value) : Run Value := do
  match key with
  | .slice a b c => build (sliceItems items (← sliceBounds items.length a b c))
  | key => itemAt kind items key

def isGenericName (name : String) : Bool :=
  ["list", "dict", "tuple", "set", "frozenset", "type", "enumerate"].any (Library.builtin · == name)
    || name == Library.templateClass || name == "typing.Generic" || name == "typing.Protocol"
    || name == "typing.Annotated"

def typeArguments (key : Value) : List Value :=
  match key with
  | .tuple items => items
  | v => [v]

def checkCount (c : ClassRef) (given expected : Nat) : Run Unit := do
  if given != expected then
    typeError ("Too " ++ (if expected < given then "many" else "few") ++ " arguments for <class '"
      ++ (← fullName c) ++ "'>; actual " ++ toString given ++ ", expected " ++ toString expected)

def classItem (c : ClassRef) (key : Value) : Run Value := do
  let args := typeArguments key
  match c with
  | .library name =>
    if isGenericName name then
      if name == Library.templateClass then checkCount c args.length 1
      return .aliasOf (.cls c) args
    else typeError ("type '" ++ (← nameOf c) ++ "' is not subscriptable")
  | .defined _ =>
    if ← derives c (.library "typing.Generic") then
      match ← ownAttribute c "__parameters__" with
      | some (.tuple (p :: ps)) =>
        checkCount c args.length (p :: ps).length
        return .aliasOf (.cls c) args
      | _ => typeError ("<class '" ++ (← fullName c) ++ "'> is not a generic class")
    else typeError ("type '" ++ (← nameOf c) ++ "' is not subscriptable")

def notSubscriptable {α : Type} (v : Value) : Run α := do
  typeError ("'" ++ (← kindOf v) ++ "' object is not subscriptable")

def getItem (d : Deeper) (v key : Value) : Run Value := do
  match v with
  | .text s => sequenceItem "str" (characters s) key fun vs => return .text (joinText vs)
  | .bytes bs =>
    sequenceItem "bytes" (bs.map fun b => .int b.toNat) key fun vs => return .bytes (byteItems vs)
  | .tuple items => sequenceItem "tuple" items key fun vs => return .tuple vs
  | .range a b c =>
    match key with
    | .slice x y z => do
      let bounds ← sliceBounds (rangeLength a b c) x y z
      return .range (a + c * bounds.start) (a + c * bounds.stop) (c * bounds.step)
    | key => itemAt "range" ((rangeItems a b c).map .int) key
  | .cls c => classItem c key
  | .form name =>
    if ["TModel", "AnyStr"].contains name then notSubscriptable v
    else return .aliasOf v (typeArguments key)
  | .aliasOf _ _ => return .aliasOf v (typeArguments key)
  | .object ref =>
    let o ← object ref
    match o with
    | .list items => sequenceItem "list" items key newList
    | .dict _ | .attributesOf _ =>
      hashable key
      match ← findEntry d key (← entriesOf o) with
      | some v => return v
      | none => raiseOf "KeyError" [key]
    | .instance _ _ =>
      match ← definedMethod? v "__getitem__" with
      | some f => d.call f [v, key] []
      | none => notSubscriptable v
    | _ => notSubscriptable v
  | v => notSubscriptable v

def putAttribute (ref : Nat) (name : String) (value : Value) : Run Unit := do
  match ← object ref with
  | .module attrs => modifyHeap ref (.module (attrs.set name value))
  | .instance c attrs => modifyHeap ref (.instance c (attrs.set name value))
  | .error c as attrs t => modifyHeap ref (.error c as (attrs.set name value) t)
  | .cls c => modifyHeap ref (.cls { c with attributes := c.attributes.set name value })
  | .function f => modifyHeap ref (.function { f with attributes := f.attributes.set name value })
  | .scope ls attrs => modifyHeap ref (.scope ls (attrs.set name value))
  | _ => pure ()

def dropAttribute (ref : Nat) (name : String) : Run Unit := do
  match ← object ref with
  | .module attrs => modifyHeap ref (.module (attrs.erase name))
  | .instance c attrs => modifyHeap ref (.instance c (attrs.erase name))
  | .error c as attrs t => modifyHeap ref (.error c as (attrs.erase name) t)
  | .cls c => modifyHeap ref (.cls { c with attributes := c.attributes.erase name })
  | .function f => modifyHeap ref (.function { f with attributes := f.attributes.erase name })
  | .scope ls attrs => modifyHeap ref (.scope ls (attrs.erase name))
  | _ => pure ()

def putSlice (items new : List Value) (b : Bounds) : Run (List Value) := do
  if b.step = 1 then
    let first := b.start.toNat
    let last := max first b.stop.toNat
    return items.take first ++ new ++ items.drop last
  else
    let places := rangeItems b.start b.stop b.step
    if places.length != new.length then
      valueError ("attempt to assign sequence of size " ++ toString new.length
        ++ " to extended slice of size " ++ toString places.length)
    else
      return ((places.zip new).foldl (fun l (i, v) => l.set i.toNat v) items)

def noAssignment {α : Type} (v : Value) : Run α := do
  typeError ("'" ++ (← kindOf v) ++ "' object does not support item assignment")

def setItem (d : Deeper) (v key value : Value) : Run Unit := do
  match v with
  | .object ref =>
    match ← object ref with
    | .list items =>
      match key with
      | .slice a b c =>
        let bounds ← sliceBounds items.length a b c
        modifyHeap ref (.list (← putSlice items (← itemsOf d value) bounds))
      | key =>
        match key.integer? with
        | none => badIndex "list" key
        | some i =>
          match place? items.length i with
          | some k => modifyHeap ref (.list (items.set k value))
          | none => raise "IndexError" "list assignment index out of range"
    | .dict entries =>
      hashable key
      modifyHeap ref (.dict (← putEntry d key value entries))
    | .attributesOf target =>
      match key with
      | .text name => putAttribute target name value
      | key => hashable key
    | .instance _ _ =>
      match ← definedMethod? v "__setitem__" with
      | some f =>
        let _ ← d.call f [v, key, value] []
      | none => noAssignment v
    | _ => noAssignment v
  | v => noAssignment v

def noDeletion {α : Type} (v : Value) : Run α := do
  let kind ← kindOf v
  typeError ("'" ++ kind ++ "' object " ++
    (if kind == "str" || kind == "tuple" || kind == "bytes" || kind == "range" then "doesn't"
     else "does not") ++ " support item deletion")

def deleteItem (d : Deeper) (v key : Value) : Run Unit := do
  match v with
  | .object ref =>
    match ← object ref with
    | .list items =>
      match key with
      | .slice a b c =>
        let bounds ← sliceBounds items.length a b c
        let places := (rangeItems bounds.start bounds.stop bounds.step).map Int.toNat
        let kept := (items.zipIdx.filter fun (_, k) => !places.contains k).map Prod.fst
        modifyHeap ref (.list kept)
      | key =>
        match key.integer? with
        | none => badIndex "list" key
        | some i =>
          match place? items.length i with
          | some k => modifyHeap ref (.list (items.eraseIdx k))
          | none => raise "IndexError" "list assignment index out of range"
    | .dict entries =>
      hashable key
      match ← dropEntry d key entries with
      | some (_, rest) => modifyHeap ref (.dict rest)
      | none => raiseOf "KeyError" [key]
    | o@(.attributesOf target) =>
      match key with
      | .text name =>
        if (← findEntry d key (← entriesOf o)).isSome then dropAttribute target name
        else raiseOf "KeyError" [key]
      | key => raiseOf "KeyError" [key]
    | .instance _ _ =>
      match ← definedMethod? v "__delitem__" with
      | some f =>
        let _ ← d.call f [v, key] []
      | none => noDeletion v
    | _ => noDeletion v
  | v => noDeletion v

def occursIn (needle : List Char) : List Char → Bool
  | [] => needle.isEmpty
  | c :: rest => needle.isPrefixOf (c :: rest) || occursIn needle rest

def contains (d : Deeper) (container v : Value) : Run Bool := do
  match container with
  | .text s =>
    match v with
    | .text t => return occursIn t.toList s.toList
    | v =>
      typeError ("'in <string>' requires string as left operand, not " ++ (← kindOf v))
  | .object ref =>
    let o ← object ref
    match o with
    | .dict _ | .attributesOf _ =>
      hashable v
      return (← findEntry d v (← entriesOf o)).isSome
    | .set _ items =>
      hashable v
      isAmong d v items
    | .list items => isAmong d v items
    | .instance _ _ =>
      match ← definedMethod? container "__contains__" with
      | some f => truth d (← d.call f [container, v] [])
      | none => isAmong d v (← itemsOf d container)
    | .iterator _ _ => isAmong d v (← itemsOf d container)
    | _ => typeError ("argument of type '" ++ (← kindOf container) ++ "' is not iterable")
  | .bytes _ | .tuple _ | .range _ _ _ => isAmong d v (← itemsOf d container)
  | _ => typeError ("argument of type '" ++ (← kindOf container) ++ "' is not iterable")

def lengthOf (d : Deeper) (v : Value) : Run Value := do
  let count := fun (n : Nat) => pure (Value.int n)
  let refuse := do typeError ("object of type '" ++ (← kindOf v) ++ "' has no len()")
  match v with
  | .text s => count s.length
  | .bytes bs => count bs.length
  | .tuple items => count items.length
  | .range a b c => count (rangeLength a b c)
  | .object ref =>
    let o ← object ref
    match o with
    | .list items | .set _ items => count items.length
    | .dict _ | .attributesOf _ => count (← entriesOf o).length
    | .instance _ _ =>
      match ← definedMethod? v "__len__" with
      | some f =>
        let r ← d.call f [v] []
        match r.integer? with
        | some i =>
          if i < 0 then valueError "__len__() should return >= 0" else return .int i
        | none =>
          typeError ("'" ++ (← kindOf r) ++ "' object cannot be interpreted as an integer")
      | none => refuse
    | _ => refuse
  | _ => refuse

end Run

end Stencil.Script
