import Stencil.Script.Routine.Text

/-!
Methods of lists, dicts, sets and tuples, and sorting. Sorting is stable; it takes the run at the
front as it is and puts each later item into its place by halving.
-/

namespace Stencil.Script.Containers

open Run

/-! Sorting. -/

def before (d : Deeper) (a b : Value) : Run Bool := do truth d (← ordered d .less a b)

def runLength (d : Deeper) (down : Bool) (last : Value) : List Value → Run Nat
  | [] => return 0
  | v :: vs => do
    if (← before d v last) == down then return (← runLength d down v vs) + 1 else return 0

def placeFor (d : Deeper) (key : Value) (sorted : Array (Value × Value)) :
    Nat → Nat → Nat → Run Nat
  | 0, lo, _ => return lo
  | fuel + 1, lo, hi => do
    if hi ≤ lo then return lo
    let mid := (lo + hi) / 2
    match sorted[mid]? with
    | none => return lo
    | some (k, _) =>
      if ← before d key k then placeFor d key sorted fuel lo mid
      else placeFor d key sorted fuel (mid + 1) hi

def insertAll (d : Deeper) (sorted : Array (Value × Value)) :
    List (Value × Value) → Run (Array (Value × Value))
  | [] => return sorted
  | (k, v) :: rest => do
    let at_ ← placeFor d k sorted (sorted.size + 1) 0 sorted.size
    insertAll d ((sorted.toList.take at_ ++ (k, v) :: sorted.toList.drop at_).toArray) rest

def sortPairs (d : Deeper) (pairs : List (Value × Value)) : Run (List (Value × Value)) := do
  match pairs with
  | [] => return []
  | [p] => return [p]
  | p :: q :: rest => do
    let down ← before d q.1 p.1
    let n ← runLength d down q.1 (rest.map Prod.fst)
    let front := p :: q :: rest.take n
    let front := if down then front.reverse else front
    return (← insertAll d front.toArray (rest.drop n)).toList

def withKeys (d : Deeper) (key : Value) : List Value → Run (List (Value × Value))
  | [] => return []
  | v :: vs => do
    let k ← match key with
      | .none => pure v
      | f => d.call f [v] []
    return (k, v) :: (← withKeys d key vs)

def sortItems (d : Deeper) (items : List Value) (named : List (String × Value)) :
    Run (List Value) := do
  match named.find? fun (n, _) => n != "key" && n != "reverse" with
  | some (n, _) => typeError ("'" ++ n ++ "' is an invalid keyword argument for sort()")
  | none =>
    let key := (named.lookup "key").getD .none
    let down ← match named.lookup "reverse" with
      | some v => truth d v
      | none => pure false
    let items := if down then items.reverse else items
    let sorted ← sortPairs d (← withKeys d key items)
    let values := sorted.map Prod.snd
    return if down then values.reverse else values

/-! Methods. -/

def indexFrom (d : Deeper) (v : Value) : Nat → List Value → Run (Option Nat)
  | _, [] => return none
  | i, a :: as => do
    if ← isAmong d v [a] then return some i else indexFrom d v (i + 1) as

def countOf (d : Deeper) (v : Value) : List Value → Run Nat
  | [] => return 0
  | a :: as => do return (if ← isAmong d v [a] then 1 else 0) + (← countOf d v as)

def needInt := TextMethods.needInt

def listMethod (name : String) (d : Deeper) (ref : Nat) (items : List Value) (args : List Value)
    (named : List (String × Value)) : Run Value := do
  let title := "list." ++ name
  let put := fun (items : List Value) => do
    modifyHeap ref (.list items)
    return Value.none
  if name != "sort" then noNames title named
  match name, args with
  | "append", [v] => put (items ++ [v])
  | "append", _ => oneArgument title args.length
  | "extend", [v] => do
    let more ← itemsOf d v
    put (items ++ more)
  | "extend", _ => oneArgument title args.length
  | "insert", [i, v] => do
    let i ← needInt i
    let n : Int := items.length
    let k := (max 0 (min n (if i < 0 then i + n else i))).toNat
    put (items.take k ++ v :: items.drop k)
  | "insert", _ => typeError ("insert expected 2 arguments, got " ++ toString args.length)
  | "pop", _ =>
    if 1 < args.length then tooManyArguments "pop" 1 args.length
    else if items.isEmpty then raise "IndexError" "pop from empty list"
    else do
      let i ← match args with
        | [v] => needInt v
        | _ => pure (-1)
      match place? items.length i with
      | none => raise "IndexError" "pop index out of range"
      | some k =>
        let _ ← put (items.eraseIdx k)
        return items[k]?.getD .none
  | "remove", [v] => do
    match ← indexFrom d v 0 items with
    | some k => put (items.eraseIdx k)
    | none => valueError "list.remove(x): x not in list"
  | "remove", _ => oneArgument title args.length
  | "clear", [] => put []
  | "reverse", [] => put items.reverse
  | "copy", [] => newList items
  | "clear", _ | "reverse", _ | "copy", _ => noArguments title args.length
  | "index", v :: _ => do
    match ← indexFrom d v 0 items with
    | some k => return .int k
    | none => valueError ((← d.quoted v) ++ " is not in list")
  | "index", [] => tooFewArguments "index" 1 0
  | "count", [v] => return .int (← countOf d v items)
  | "count", _ => oneArgument title args.length
  | "sort", [] => do put (← sortItems d items named)
  | "sort", _ => typeError "sort() takes no positional arguments"
  | _, _ => noAttribute (.object ref) name

def tupleMethod (name : String) (d : Deeper) (items : List Value) (args : List Value) :
    Run Value := do
  match name, args with
  | "count", [v] => return .int (← countOf d v items)
  | "index", v :: _ => do
    match ← indexFrom d v 0 items with
    | some k => return .int k
    | none => valueError "tuple.index(x): x not in tuple"
  | _, _ => oneArgument ("tuple." ++ name) args.length

def pairsOf (d : Deeper) (v : Value) : Run (List (Value × Value)) := do
  let fromItems := do
    let items ← itemsOf d v
    (items.zipIdx).mapM fun (item, i) => do
      let pair ← handling (itemsOf d item) fun _ =>
        typeError ("cannot convert dictionary update sequence element #" ++ toString i
          ++ " to a sequence")
      match pair with
      | [k, w] => return (k, w)
      | other =>
        valueError ("dictionary update sequence element #" ++ toString i ++ " has length "
          ++ toString other.length ++ "; 2 is required")
  match v with
  | .object ref =>
    match ← object ref with
    | o@(.dict _) | o@(.attributesOf _) => entriesOf o
    | _ => fromItems
  | _ => fromItems

def dictMethod (name : String) (d : Deeper) (ref : Nat) (entries : List (Value × Value))
    (args : List Value) (named : List (String × Value)) : Run Value := do
  let title := "dict." ++ name
  let self := Value.object ref
  if name != "update" then noNames title named
  match name, args with
  | "get", k :: rest =>
    if 1 < rest.length then tooManyArguments "get" 2 args.length
    else do
      hashable k
      return (← findEntry d k entries).getD (rest.headD .none)
  | "get", [] => tooFewArguments "get" 1 0
  | "items", [] => newList (entries.map fun (k, v) => .tuple [k, v])
  | "keys", [] => newList (entries.map Prod.fst)
  | "values", [] => newList (entries.map Prod.snd)
  | "items", _ | "keys", _ | "values", _ => noArguments title args.length
  | "pop", k :: rest => do
    hashable k
    match ← dropEntry d k entries with
    | some (v, _) =>
      deleteItem d self k
      return v
    | none =>
      match rest with
      | [v] => return v
      | _ => raiseOf "KeyError" [k]
  | "pop", [] => tooFewArguments "pop" 1 0
  | "popitem", [] =>
    match entries.getLast? with
    | some (k, v) => do
      deleteItem d self k
      return .tuple [k, v]
    | none => raiseOf "KeyError" [.text "popitem(): dictionary is empty"]
  | "setdefault", k :: rest => do
    hashable k
    match ← findEntry d k entries with
    | some v => return v
    | none =>
      let v := rest.headD .none
      setItem d self k v
      return v
  | "update", _ => do
    let more ← match args with
      | [] => pure []
      | [v] => pairsOf d v
      | _ => tooManyArguments "update" 1 args.length
    for (k, v) in more ++ named.map (fun (k, v) => (Value.text k, v)) do
      setItem d self k v
    return .none
  | "clear", [] => do
    modifyHeap ref (.dict [])
    return .none
  | "copy", [] => new (.dict entries)
  | "clear", _ | "copy", _ => noArguments title args.length
  | _, _ => noAttribute self name

def setMethod (name : String) (d : Deeper) (ref : Nat) (frozen : Bool) (items : List Value)
    (args : List Value) : Run Value := do
  let title := "set." ++ name
  let put := fun (items : List Value) => do
    modifyHeap ref (.set frozen items)
    return Value.none
  let others := fun (vs : List Value) => do
    return (← vs.mapM fun v => itemsOf d v)
  match name, args with
  | "add", [v] => do
    hashable v
    if ← isAmong d v items then return .none else put (items ++ [v])
  | "discard", [v] | "remove", [v] => do
    hashable v
    match ← indexFrom d v 0 items with
    | some k => put (items.eraseIdx k)
    | none => if name == "remove" then raiseOf "KeyError" [v] else return .none
  | "add", _ | "discard", _ | "remove", _ => oneArgument title args.length
  | "update", vs => do
    put (← distinct d [] (items ++ (← others vs).flatten))
  | "union", vs => do
    new (.set frozen (← distinct d [] (items ++ (← others vs).flatten)))
  | "intersection", vs => do
    let mut kept := items
    for other in ← others vs do
      kept ← common d other kept
    new (.set frozen kept)
  | "difference", vs => do
    new (.set frozen (← without d (← others vs).flatten items))
  | "issubset", [v] => do return .bool (← allAmong d (← itemsOf d v) items)
  | "issuperset", [v] => do return .bool (← allAmong d items (← itemsOf d v))
  | "copy", [] => new (.set frozen items)
  | "clear", [] => put []
  | "pop", [] =>
    match items with
    | [] => raiseOf "KeyError" [.text "pop from an empty set"]
    | v :: rest => do
      let _ ← put rest
      return v
  | _, _ => noArguments title args.length

def iteratorMethod (name : String) (ref : Nat) (args : List Value) : Run Value := do
  match name, args with
  | "__iter__", [] => return .object ref
  | "__next__", [] | "send", [_] => do
    match ← nextOf ref with
    | some v => return v
    | none => raiseOf "StopIteration" []
  | "close", [] => do
    modifyHeap ref (.iterator "generator" ⟨[], none⟩)
    return .none
  | _, _ => noArguments ("generator." ++ name) args.length

end Stencil.Script.Containers
