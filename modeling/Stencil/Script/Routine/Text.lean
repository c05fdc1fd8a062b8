import Stencil.Script.Member
import Stencil.Text.Blank
import Stencil.Text.Case
import Stencil.Text.Letter
import Stencil.Text.Lines

/-!
Methods of text and of bytes.
-/

namespace Stencil.Script

abbrev Routine := Deeper → List Value → List (String × Value) → Run Value

namespace Run

def countText (n : Nat) : String :=
  if n = 1 then "1 argument" else toString n ++ " arguments"

def noNames (title : String) (named : List (String × Value)) : Run Unit :=
  match named with
  | [] => pure ()
  | _ => typeError (title ++ "() takes no keyword arguments")

def noArguments {α : Type} (title : String) (given : Nat) : Run α :=
  typeError (title ++ "() takes no arguments (" ++ toString given ++ " given)")

def oneArgument {α : Type} (title : String) (given : Nat) : Run α :=
  typeError (title ++ "() takes exactly one argument (" ++ toString given ++ " given)")

def tooFewArguments {α : Type} (title : String) (least given : Nat) : Run α :=
  typeError (title ++ " expected at least " ++ countText least ++ ", got " ++ toString given)

def atLeastOne {α : Type} (title : String) : Run α :=
  typeError (title ++ "() takes at least 1 argument (0 given)")

def tooManyArguments {α : Type} (title : String) (most given : Nat) : Run α :=
  typeError (title ++ " expected at most " ++ countText most ++ ", got " ++ toString given)

/-- What a routine can be given: parameters by name, of which the first must be there, and some of
these by position only. -/
structure Arity where
  title : String
  names : List String
  required : Nat := 0
  byPosition : Nat := 0

def invalidName {α : Type} (title name : String) : Run α :=
  typeError ("'" ++ name ++ "' is an invalid keyword argument for " ++ title ++ "()")

/-- The arguments of a routine by position, those that are missing being looked for by name. -/
def arguments (a : Arity) (given : List Value) (named : List (String × Value)) :
    Run (List (Option Value)) := do
  let count := given.length + named.length
  if a.names.length < count then
    typeError (a.title ++ "() takes at most " ++ toString a.names.length
      ++ (if given.isEmpty then " keyword argument" else " argument")
      ++ (if a.names.length = 1 then "" else "s") ++ " (" ++ toString count ++ " given)")
  if given.length < a.byPosition then
    typeError (a.title ++ "() takes " ++ (if a.byPosition < a.names.length then "at least " else "exactly ")
      ++ toString a.byPosition ++ " positional argument" ++ (if a.byPosition = 1 then "" else "s")
      ++ " (" ++ toString given.length ++ " given)")
  let all := a.names.zipIdx.map fun (n, i) =>
    match given[i]? with
    | some v => some v
    | none => if i < a.byPosition then none else named.lookup n
  match (a.names.zipIdx.take a.required).find? fun (_, i) => (all[i]?).join.isNone with
  | some (n, i) =>
    typeError (a.title ++ "() missing required argument '" ++ n ++ "' (pos " ++ toString (i + 1) ++ ")")
  | none => pure ()
  match named.find? fun (n, _) => !(a.names.drop a.byPosition).contains n with
  | some (n, _) => invalidName a.title n
  | none => return all

def argument (given : List (Option Value)) (i : Nat) : Option Value := (given[i]?).join

end Run

namespace TextMethods

open Run

def splitOn (separator : List Char) : Nat → Nat → List Char → List Char → List (List Char)
  | 0, _, held, rest => [held.reverse ++ rest]
  | _, _, held, [] => [held.reverse]
  | fuel + 1, cuts, held, c :: rest =>
    if 0 < cuts && separator.isPrefixOf (c :: rest) then
      held.reverse :: splitOn separator fuel (cuts - 1) [] ((c :: rest).drop separator.length)
    else splitOn separator fuel cuts (c :: held) rest

def splitBlank : Nat → Nat → List Char → List (List Char)
  | 0, _, _ => []
  | fuel + 1, cuts, s =>
    let s := Text.trimLeft s
    if s.isEmpty then []
    else if cuts = 0 then [Text.trimRight s]
    else
      let word := s.takeWhile fun c => !Text.isBlank c
      word :: splitBlank fuel (cuts - 1) (s.drop word.length)

def replaceIn (old new : List Char) : Nat → Nat → List Char → List Char
  | 0, _, s => s
  | _, 0, s => s
  | fuel + 1, cuts, s =>
    match s with
    | [] => if old.isEmpty then new else []
    | c :: rest =>
      if old.isPrefixOf (c :: rest) then
        if old.isEmpty then new ++ c :: replaceIn old new fuel (cuts - 1) rest
        else new ++ replaceIn old new fuel (cuts - 1) ((c :: rest).drop old.length)
      else c :: replaceIn old new fuel cuts rest

/-- The first position of a text inside another, counted on from the given one. -/
def position? (needle : List Char) (at_ : Nat) : List Char → Option Nat
  | [] => if needle.isEmpty then some at_ else none
  | c :: rest =>
    if needle.isPrefixOf (c :: rest) then some at_ else position? needle (at_ + 1) rest

def occurrences (needle : List Char) : Nat → List Char → Nat
  | 0, _ => 0
  | fuel + 1, s =>
    match s with
    | [] => if needle.isEmpty then 1 else 0
    | c :: rest =>
      if needle.isPrefixOf (c :: rest) then
        occurrences needle fuel ((c :: rest).drop (max 1 needle.length)) + 1
      else occurrences needle fuel rest

def titled : Bool → List Char → List Char
  | _, [] => []
  | inWord, c :: rest =>
    let letter := Text.isUpperChar c || Text.isLowerChar c
    (if inWord then [Text.lowerChar c] else Text.upperChar c) ++ titled letter rest

def isLetter (c : Char) : Bool :=
  Text.startsName c && c != '_'

def allOf (p : Char → Bool) (s : String) : Bool := s != "" && s.toList.all p

def needText (title : String) (index : Nat) (v : Value) : Run String := do
  match v with
  | .text s => return s
  | v =>
    typeError (title ++ "() argument " ++ toString index ++ " must be str, not " ++ (← kindOf v))

def needInt (v : Value) : Run Int := do
  match v.integer? with
  | some i => return i
  | none => typeError ("'" ++ (← kindOf v) ++ "' object cannot be interpreted as an integer")

def part (s : List Char) (start stop : Option Value) : Run (List Char × Nat) := do
  let b ← sliceBounds s.length (start.getD .none) (stop.getD .none) .none
  let first := b.start.toNat
  return ((s.take b.stop.toNat).drop first, first)

def trimmed (side : String) (s : List Char) (drop : Char → Bool) : List Char :=
  let left := if side == "rstrip" then s else s.dropWhile drop
  if side == "lstrip" then left else (left.reverse.dropWhile drop).reverse

def strip (side : String) (s : String) (args : List Value) : Run Value := do
  match args with
  | [] | [.none] => return .text (String.ofList (trimmed side s.toList Text.isBlank))
  | [.text cs] => return .text (String.ofList (trimmed side s.toList cs.toList.contains))
  | [_] => typeError (side ++ " arg must be None or str")
  | _ => tooManyArguments side 1 args.length

def newTexts (parts : List (List Char)) : Run Value :=
  newList (parts.map fun p => .text (String.ofList p))

def cutsOf (length : Nat) (limit : Option Value) : Run Nat := do
  match limit with
  | none => return length + 1
  | some v =>
    let i ← needInt v
    return if i < 0 then length + 1 else i.toNat

def split (fromRight : Bool) (s : String) (args : List Value) (named : List (String × Value)) :
    Run Value := do
  let title := if fromRight then "rsplit" else "split"
  let given ← arguments ⟨title, ["sep", "maxsplit"], 0, 0⟩ args named
  let cs := s.toList
  let cuts ← cutsOf cs.length (argument given 1)
  let turn := fun (l : List Char) => if fromRight then l.reverse else l
  let back := fun (ps : List (List Char)) =>
    if fromRight then (ps.map List.reverse).reverse else ps
  match argument given 0 with
  | none | some .none => newTexts (back (splitBlank (cs.length + 1) cuts (turn cs)))
  | some (.text "") => valueError "empty separator"
  | some (.text sep) => newTexts (back (splitOn (turn sep.toList) (cs.length + 1) cuts [] (turn cs)))
  | some v => typeError ("must be str or None, not " ++ (← kindOf v))

def joinAll (separator : String) : Nat → List Value → Run (List String)
  | _, [] => return []
  | i, .text s :: rest =>
    return (if i = 0 then s else separator ++ s) :: (← joinAll separator (i + 1) rest)
  | i, v :: _ => do
    typeError ("sequence item " ++ toString i ++ ": expected str instance, " ++ (← kindOf v)
      ++ " found")

def join (d : Deeper) (separator : String) (v : Value) : Run String := do
  let items ← handling (itemsOf d v) fun error => do
    match ← object error with
    | .error _ [.text m] _ _ =>
      if m.endsWith "object is not iterable" then typeError "can only join an iterable"
      else throw (.raised error false)
    | _ => throw (.raised error false)
  return String.join (← joinAll separator 0 items)

def affix (title : String) (test : List Char → List Char → Bool) (s : List Char) (v : Value) :
    Run Bool := do
  match v with
  | .text t => return test t.toList s
  | .tuple ts =>
    let found ← ts.mapM fun
      | .text t => pure (test t.toList s)
      | v => do typeError ("tuple for " ++ title ++ " must only contain str, not " ++ (← kindOf v))
    return found.any id
  | v => do
    typeError (title ++ " first arg must be str or a tuple of str, not " ++ (← kindOf v))

def find (title : String) (s : String) (args : List Value) : Run Value := do
  match args with
  | needle :: rest =>
    let n ← match needle with
      | .text n => pure n.toList
      | v => do typeError ("must be str, not " ++ (← kindOf v))
    let (cs, first) ← part s.toList (rest[0]?) (rest[1]?)
    let place := if title == "rfind" || title == "rindex" then
        (position? n.reverse 0 cs.reverse).map fun k => first + cs.length - k - n.length
      else (position? n first cs)
    match place with
    | some k => return .int k
    | none =>
      if title == "index" || title == "rindex" then valueError "substring not found"
      else return .int (-1)
  | [] => atLeastOne title

def padded (title : String) (s : String) (args : List Value) : Run Value := do
  match args with
  | width :: rest =>
    let w := (← needInt width).toNat
    let fill ← match rest with
      | [.text f] => pure (f.toList.headD ' ')
      | _ => pure ' '
    let missing := w - s.length
    let (left, right) := match title with
      | "ljust" => (0, missing)
      | "rjust" => (missing, 0)
      | _ =>
        let l := missing / 2 + (if missing % 2 = 1 && w % 2 = 1 then 1 else 0)
        (l, missing - l)
    return .text (String.ofList (List.replicate left fill ++ s.toList ++ List.replicate right fill))
  | [] => tooFewArguments title 1 0

def zeroFilled (s : String) (w : Int) : String :=
  let zeros := List.replicate (w.toNat - s.length) '0'
  match s.toList with
  | c :: rest => if c == '-' || c == '+' then String.ofList (c :: zeros ++ rest)
      else String.ofList (zeros ++ c :: rest)
  | [] => String.ofList zeros

def around (title : String) (s : String) (sep : Value) : Run Value := do
  match sep with
  | .text "" => valueError "empty separator"
  | .text t =>
    let cs := s.toList
    let place := if title == "rpartition" then
        (position? t.toList.reverse 0 cs.reverse).map fun k => cs.length - k - t.length
      else position? t.toList 0 cs
    match place with
    | some k =>
      return .tuple [.text (String.ofList (cs.take k)), .text t,
        .text (String.ofList (cs.drop (k + t.length)))]
    | none =>
      return .tuple (if title == "rpartition" then [.text "", .text "", .text s]
        else [.text s, .text "", .text ""])
  | v => typeError ("must be str, not " ++ (← kindOf v))

def linesOf (keep : Bool) (s : String) : List (List Char) :=
  if !keep then Text.wideLines s
  else
    let rec go : List Char → List Char → List (List Char)
      | [], [] => []
      | held, [] => [held.reverse]
      | held, '\r' :: '\n' :: rest => ('\n' :: '\r' :: held).reverse :: go [] rest
      | held, c :: rest =>
        if Text.isWideBreak c then (c :: held).reverse :: go [] rest
        else go (c :: held) rest
    go [] s.toList

def byName : List String := ["split", "rsplit", "splitlines", "encode", "expandtabs", "format"]

def method (name : String) (d : Deeper) (s : String) (args : List Value)
    (named : List (String × Value)) : Run Value := do
  let title := "str." ++ name
  let plain := fun (v : Value) => do
    if args.isEmpty then return v else noArguments title args.length
  let one := fun (f : Value → Run Value) => do
    match args with
    | [v] => f v
    | _ => oneArgument title args.length
  let test := fun (p : Char → Bool) => plain (.bool (allOf p s))
  if !byName.contains name then noNames title named
  match name with
  | "upper" => plain (.text (Text.upper s))
  | "lower" | "casefold" => plain (.text (Text.lower s))
  | "title" => plain (.text (String.ofList (titled false s.toList)))
  | "capitalize" =>
    plain (.text (String.ofList (match s.toList with
      | [] => []
      | c :: rest => Text.upperChar c ++ rest.map Text.lowerChar)))
  | "swapcase" =>
    plain (.text (String.ofList (s.toList.flatMap fun c =>
      if Text.isUpperChar c then [Text.lowerChar c]
      else Text.upperChar c)))
  | "isdigit" => test Char.isDigit
  | "isalpha" => test isLetter
  | "isalnum" => test fun c => isLetter c || c.isDigit
  | "isspace" => test Text.isBlank
  | "isupper" =>
    plain (.bool (s.toList.any Text.isUpperChar && !s.toList.any Text.isLowerChar))
  | "islower" =>
    plain (.bool (s.toList.any Text.isLowerChar && !s.toList.any Text.isUpperChar))
  | "isidentifier" =>
    plain (.bool (match s.toList with
      | [] => false
      | c :: rest => Text.startsName c && rest.all Text.continuesName))
  | "strip" | "lstrip" | "rstrip" => strip name s args
  | "split" => split false s args named
  | "rsplit" => split true s args named
  | "join" => one fun v => return .text (← join d s v)
  | "replace" =>
    match args with
    | [a, b] | [a, b, _] =>
      let old ← needText "replace" 1 a
      let new ← needText "replace" 2 b
      let cuts ← cutsOf s.length args[2]?
      return .text (String.ofList (replaceIn old.toList new.toList (s.length + 1) cuts s.toList))
    | _ =>
      if args.length < 2 then
        typeError ("replace expected at least 2 arguments, got " ++ toString args.length)
      else tooManyArguments "replace" 3 args.length
  | "startswith" | "endswith" =>
    match args with
    | v :: rest =>
      let (cs, _) ← part s.toList (rest[0]?) (rest[1]?)
      return .bool (← affix name (if name == "startswith" then List.isPrefixOf
        else List.isSuffixOf) cs v)
    | [] => atLeastOne name
  | "find" | "rfind" | "index" | "rindex" => find name s args
  | "count" =>
    match args with
    | v :: rest =>
      let n ← match v with
        | .text n => pure n
        | v => do typeError ("must be str, not " ++ (← kindOf v))
      let (cs, _) ← part s.toList (rest[0]?) (rest[1]?)
      return .int (occurrences n.toList (cs.length + 2) cs)
    | [] => atLeastOne "count"
  | "partition" | "rpartition" => one (around name s)
  | "splitlines" =>
    let keep ← match (← arguments ⟨"splitlines", ["keepends"], 0, 0⟩ args named) with
      | [some v] => truth d v
      | _ => pure false
    newTexts (linesOf keep s)
  | "zfill" => one fun v => do return .text (zeroFilled s (← needInt v))
  | "ljust" | "rjust" | "center" => padded name s args
  | "encode" => return .bytes s.toUTF8.toList
  | "removeprefix" =>
    one fun v => do
      let t ← needText name 1 v
      return .text (if t.toList.isPrefixOf s.toList then String.ofList (s.toList.drop t.length) else s)
  | "removesuffix" =>
    one fun v => do
      let t ← needText name 1 v
      return .text (if t.toList.isSuffixOf s.toList && t != "" then
        String.ofList (s.toList.take (s.length - t.length)) else s)
  | _ => noAttribute (.text s) name

def bytesMethod (name : String) (bs : List UInt8) (_args : List Value) : Run Value := do
  match name with
  | "decode" =>
    match String.fromUTF8? ⟨bs.toArray⟩ with
    | some s => return .text s
    | none => raise "UnicodeDecodeError" "'utf-8' codec can't decode bytes"
  | "hex" => return .text (Text.hexOfBytes bs)
  | _ => noAttribute (.bytes bs) name

end TextMethods

end Stencil.Script
