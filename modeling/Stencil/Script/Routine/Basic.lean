import Stencil.Script.Routine.Construct

/-!
Functions that are found by name everywhere.
-/

namespace Stencil.Script.Basic

open Run

/-- Whether a value is of a class, of one of several, or of a member of a union. -/
def matchesClass (test : ClassRef → Run Bool) (message : String) : Nat → Value → Run Bool
  | 0, _ => typeError message
  | fuel + 1, v =>
    let rec any : List Value → Run Bool
      | [] => return false
      | x :: xs => do if ← matchesClass test message fuel x then return true else any xs
    match v with
    | .cls c => test c
    | .tuple vs => any vs
    | .aliasOf (.form "|") vs | .aliasOf (.form "Union") vs => any vs
    | .none => test (.builtin "NoneType")
    | _ => typeError message

def isInstance (v target : Value) : Run Bool := do
  let c ← classOf v
  matchesClass (fun k => do if k == .builtin "object" then return true else derives c k)
    "isinstance() arg 2 must be a type, a tuple of types, or a union" 8 target

def isSubclass (v target : Value) : Run Bool := do
  match v with
  | .cls c =>
    matchesClass (fun k => do if k == .builtin "object" then return true else derives c k)
      "issubclass() arg 2 must be a class, a tuple of classes, or a union" 8 target
  | _ => typeError "issubclass() arg 1 must be a class"

def attributeName (v : Value) : Run String := do
  match v with
  | .text s => return s
  | v => typeError ("attribute name must be string, not '" ++ (← kindOf v) ++ "'")

def total (d : Deeper) : Value → List Value → Run Value
  | acc, [] => return acc
  | acc, v :: vs => do total d (← binary d .add "+" acc v) vs

def extreme (d : Deeper) (t : OrderTest) (key : Value) : Value × Value → List Value →
    Run Value
  | best, [] => return best.2
  | best, v :: vs => do
    let k ← match key with
      | .none => pure v
      | f => d.call f [v] []
    if ← truth d (← ordered d t k best.1) then extreme d t key (k, v) vs
    else extreme d t key best vs

def extremeOf (title : String) (d : Deeper) (args : List Value) (named : List (String × Value)) :
    Run Value := do
  match named.find? fun (n, _) => n != "key" && n != "default" with
  | some (n, _) => invalidName title n
  | none =>
    if args.length ≠ 1 && named.any (·.1 == "default") then
      typeError ("Cannot specify a default for " ++ title
        ++ "() with multiple positional arguments")
    let t := if title == "max" then OrderTest.greater else OrderTest.less
    let items ← match args with
      | [] => tooFewArguments title 1 0
      | [v] => itemsOf d v
      | vs => pure vs
    match items with
    | [] =>
      match named.lookup "default", args with
      | some v, [_] => return v
      | _, _ => valueError (title ++ "() arg is an empty sequence")
    | v :: vs =>
      let key := (named.lookup "key").getD .none
      let k ← match key with
        | .none => pure v
        | f => d.call f [v] []
      extreme d t key (k, v) vs

def search (d : Deeper) (wanted : Bool) : Nat → Cursor → Run Bool
  | 0, _ => throw .exhausted
  | fuel + 1, c => do
    match ← advance d c with
    | none => return false
    | some (v, c) => if (← truth d v) == wanted then return true else search d wanted fuel c

def roundInt (i : Int) (places : Int) : Int :=
  if 0 ≤ places then i
  else
    let unit := Nat.pow 10 (-places).toNat
    let q := Decimal.roundedQuotient i.natAbs unit * unit
    if i < 0 then -(q : Int) else q

def roundFloat (x : Float) (places : Nat) : Float :=
  match Decimal.Reading.ofFloat x with
  | .finite negative b =>
    let y := (Decimal.float? (Decimal.fixedText places false (b.inPlaces places))).getD x
    if negative then -y else y
  | _ => x

def rounded (args : List Value) (named : List (String × Value)) : Run Value := do
  let given ← arguments ⟨"round", ["number", "ndigits"], 1, 0⟩ args named
  let v := (argument given 0).getD .none
  match v, argument given 1 with
  | .float x, none | .float x, some .none => Construct.wholePart (roundFloat x 0)
  | .float x, some n => do
    let p ← TextMethods.needInt n
    return .float (roundFloat x p.toNat)
  | v, n => do
    match v.integer? with
    | none => typeError ("type " ++ (← kindOf v) ++ " doesn't define __round__ method")
    | some i =>
      match n with
      | none | some .none => return .int i
      | some p => return .int (roundInt i (← TextMethods.needInt p))

def inBase (mark : String) (base : Nat) (v : Value) : Run Value := do
  let i ← TextMethods.needInt v
  return .text ((if i < 0 then "-" else "") ++ mark ++ Text.Percent.digitsIn base false i.natAbs)

def namesOf (v : Value) : Run (List String) := do
  let own ← match v with
    | .object ref => do
      match ← object ref with
      | .module attrs | .instance _ attrs | .error _ _ attrs _ => pure attrs.names
      | .function f => pure f.attributes.names
      | _ => pure []
    | _ => pure []
  let c ← match v with
    | .cls c => pure c
    | v => classOf v
  let inherited ← (← orderOf c).mapM fun k => do
    match k with
    | .library n => return Library.methods n
    | .defined r =>
      match ← object r with
      | .cls k => return k.attributes.names
      | _ => return []
  return ((own ++ inherited.flatten).eraseDups.mergeSort fun a b => a ≤ b)

/-- A value in a layout, as the library lays it out; an empty layout asks for the plain text. -/
def laidPlain (d : Deeper) (v : Value) (layout : String) : Run String := do
  if layout == "" then plainStep d v
  else
    let cs := layout.toList
    let isAlign := fun (c : Char) => c == '<' || c == '>' || c == '^' || c == '='
    let (fill, align, rest) := match cs with
      | f :: a :: rest => if isAlign a then (f, some a, rest)
          else if isAlign f then (' ', some f, a :: rest) else (' ', none, cs)
      | [a] => if isAlign a then (' ', some a, []) else (' ', none, cs)
      | [] => (' ', none, [])
    let plus := rest.head? == some '+'
    let rest := if plus || rest.head? == some '-' then rest.drop 1 else rest
    let (fill, align, rest) := if rest.head? == some '0' && align.isNone
      then ('0', some '=', rest.drop 1) else (fill, align, rest)
    let ds := rest.takeWhile Char.isDigit
    let width := (Decimal.nat? ds).getD 0
    let rest := rest.drop ds.length
    let grouped := rest.head? == some ','
    let rest := if grouped then rest.drop 1 else rest
    let (precision, rest) := match rest with
      | '.' :: r =>
        let ps := r.takeWhile Char.isDigit
        (Decimal.nat? ps, r.drop ps.length)
      | r => (none, r)
    let numeric := v.number?.isSome
    let unknown := do
      match rest with
      | [c] => valueError ("Unknown format code '" ++ String.singleton c ++ "' for object of type '"
          ++ (← kindOf v) ++ "'")
      | _ => valueError "Invalid format specifier"
    let body ← match v, rest with
      | .text s, [] | .text s, ['s'] =>
        pure (match precision with
          | some p => String.ofList (s.toList.take p)
          | none => s)
      | .text _, _ => unknown
      | v, [] =>
        match v, precision with
        | .float x, some p => pure (Text.Percent.Conversion.fillFloat { precision := some p, sign := 'f' } x)
        | v, _ => plainStep d v
      | v, [c] =>
        match v.number? with
        | some n =>
          if ['d', 'x', 'X', 'o', 'e', 'E', 'f', 'F', 'g', 'G'].contains c then
            match n, c with
            | .float _, 'd' | .float _, 'x' | .float _, 'X' | .float _, 'o' => unknown
            | _, _ => ofFilling (Text.Percent.Conversion.fill { precision, sign := c } (.number n))
          else if c == 'b' then
            match n with
            | .int i => pure ((if i < 0 then "-" else "") ++ Text.Percent.digitsIn 2 false i.natAbs)
            | .float _ => unknown
          else if c == '%' then
            match n.mul (.int 100) with
            | .ok m =>
              let s ← ofFilling (Text.Percent.Conversion.fill { precision, sign := 'f' } (.number m))
              pure (s ++ "%")
            | .error e => raise e.kind e.message
          else unknown
        | none => unknown
      | v, _ => do
        if numeric then unknown
        else
          typeError ("unsupported format string passed to " ++ (← kindOf v) ++ ".__format__")
    let (sign, digits) := match body.toList with
      | '-' :: ds => if numeric then ("-", String.ofList ds) else ("", body)
      | _ => (if plus && numeric then "+" else "", body)
    let digits := if grouped then
        let whole := digits.toList.takeWhile Char.isDigit
        let tail := digits.toList.drop whole.length
        let rec groups : Nat → List Char → List Char
          | 0, l => l
          | n + 1, l => if l.length ≤ 3 then l else l.take 3 ++ ',' :: groups n (l.drop 3)
        String.ofList ((groups whole.length whole.reverse).reverse ++ tail)
      else digits
    let missing := width - sign.length - digits.length
    let blanks := fun (n : Nat) => String.ofList (List.replicate n fill)
    match align.getD (if numeric then '>' else '<') with
    | '<' => return sign ++ digits ++ blanks missing
    | '^' => return blanks (missing / 2) ++ sign ++ digits ++ blanks (missing - missing / 2)
    | '=' => return sign ++ blanks missing ++ digits
    | _ => return blanks missing ++ sign ++ digits

/-- A value in a layout; source can say how instances of its classes are laid out. -/
def laidOut (d : Deeper) (v : Value) (layout : String) : Run String := do
  match ← definedMethod? v "__format__" with
  | none => laidPlain d v layout
  | some f =>
    match ← d.call f [v, .text layout] [] with
    | .text s => return s
    | other => typeError ("__format__ must return a str, not " ++ (← kindOf other))

def unnamed : List String :=
  ["next", "isinstance", "issubclass", "hasattr", "getattr", "setattr", "delattr", "divmod",
   "globals", "locals", "format"]

def function (name : String) (d : Deeper) (args : List Value) (named : List (String × Value)) :
    Run Value := do
  let one := fun (f : Value → Run Value) => do
    noNames name named
    match args with
    | [v] => f v
    | _ => oneArgument name args.length
  if unnamed.contains name then noNames name named
  match name with
  | "len" => one (lengthOf d)
  | "repr" => one fun v => do return .text (← quotedStep d v)
  | "ascii" => one fun v => do return .text (Text.asciiOnly (← quotedStep d v))
  | "abs" => one fun v => do
    match v.number? with
    | some (.int i) => return .int i.natAbs
    | some (.float x) => return .float x.abs
    | none => typeError ("bad operand type for abs(): '" ++ (← kindOf v) ++ "'")
  | "any" => one fun v => do return .bool (← search d true stepLimit (← start d v))
  | "all" => one fun v => do return .bool !(← search d false stepLimit (← start d v))
  | "callable" => one fun v => do
    match v with
    | .cls _ | .routine _ | .bound _ _ => return .bool true
    | .object ref =>
      match ← object ref with
      | .function _ | .method _ _ => return .bool true
      | _ => return .bool (← definedMethod? v "__call__").isSome
    | _ => return .bool false
  | "chr" => one fun v => do
    let i ← TextMethods.needInt v
    if 0 ≤ i && i < 0x110000 then return .text (String.singleton (Char.ofNat i.toNat))
    else valueError "chr() arg not in range(0x110000)"
  | "ord" => one fun v => do
    match v with
    | .text s =>
      match s.toList with
      | [c] => return .int c.toNat
      | cs =>
        typeError ("ord() expected a character, but string of length " ++ toString cs.length
          ++ " found")
    | v => typeError ("ord() expected string of length 1, but " ++ (← kindOf v) ++ " found")
  | "hex" => one (inBase "0x" 16)
  | "oct" => one (inBase "0o" 8)
  | "bin" => one (inBase "0b" 2)
  | "id" => one fun v =>
    match v with
    | .object ref => return .int (ref * 16)
    | _ => return .int 16
  | "hash" => one fun v => do
    hashable v
    match v with
    | .int i => return .int (if i = -1 then -2 else Int.tmod i (Int.pow 2 61 - 1))
    | .bool b => return .int (if b then 1 else 0)
    | _ => return .int 0
  | "iter" => one fun v => do
    match v with
    | .object ref =>
      match ← object ref with
      | .iterator _ _ => return v
      | .instance _ _ =>
        match ← definedMethod? v "__iter__" with
        | some f => d.call f [v] []
        | none => new (.iterator "list_iterator" (← remaining d stepLimit (← start d v) []))
      | _ => newIterator "list_iterator" (← itemsOf d v)
    | v => newIterator "list_iterator" (← itemsOf d v)
  | "next" =>
    match args with
    | it :: rest => do
      let found ← match it with
        | .object ref => do
          match ← object ref with
          | .iterator _ _ => nextOf ref
          | _ =>
            match ← definedMethod? it "__next__" with
            | some f =>
              if rest.isEmpty then pure (some (← d.call f [it] []))
              else untilRaised "StopIteration" (d.call f [it] [])
            | none => typeError ("'" ++ (← kindOf it) ++ "' object is not an iterator")
        | v => do typeError ("'" ++ (← kindOf v) ++ "' object is not an iterator")
      match found, rest with
      | some v, _ => return v
      | none, v :: _ => return v
      | none, [] => raiseOf "StopIteration" []
    | [] => tooFewArguments "next" 1 0
  | "sum" => do
    let given ← arguments ⟨"sum", ["iterable", "start"], 0, 1⟩ args named
    let first := (argument given 1).getD (.int 0)
    match first with
    | .text _ => typeError "sum() can't sum strings [use ''.join(seq) instead]"
    | _ => total d first (← itemsOf d ((argument given 0).getD .none))
  | "max" | "min" => extremeOf name d args named
  | "sorted" =>
    match args with
    | [v] => do newList (← Containers.sortItems d (← itemsOf d v) named)
    | _ => typeError ("sorted expected 1 argument, got " ++ toString args.length)
  | "isinstance" =>
    match args with
    | [v, t] => return .bool (← isInstance v t)
    | _ => typeError ("isinstance expected 2 arguments, got " ++ toString args.length)
  | "issubclass" =>
    match args with
    | [v, t] => return .bool (← isSubclass v t)
    | _ => typeError ("issubclass expected 2 arguments, got " ++ toString args.length)
  | "hasattr" =>
    match args with
    | [v, n] => do return .bool (← lookMember d v (← attributeName n)).isSome
    | _ => typeError ("hasattr expected 2 arguments, got " ++ toString args.length)
  | "getattr" =>
    match args with
    | [v, n] => do getMember d v (← attributeName n)
    | [v, n, other] => do return (← lookMember d v (← attributeName n)).getD other
    | _ =>
      if args.length < 2 then tooFewArguments "getattr" 2 args.length
      else tooManyArguments "getattr" 3 args.length
  | "setattr" =>
    match args with
    | [v, n, value] => do
      setMember d v (← attributeName n) value
      return .none
    | _ => typeError ("setattr expected 3 arguments, got " ++ toString args.length)
  | "delattr" =>
    match args with
    | [v, n] => do
      deleteMember v (← attributeName n)
      return .none
    | _ => typeError ("delattr expected 2 arguments, got " ++ toString args.length)
  | "vars" => one fun v => do
    match ← lookMember d v "__dict__" with
    | some found => return found
    | none => typeError "vars() argument must have __dict__ attribute"
  | "dir" => one fun v => do newList ((← namesOf v).map .text)
  | "print" =>
    match named.find? fun (n, _) => !(["sep", "end", "file", "flush"].contains n) with
    | some (n, _) => invalidName "print" n
    | none => return .none
  | "globals" | "locals" => noArguments name args.length
  | "round" => rounded args named
  | "divmod" =>
    match args with
    | [a, b] => do
      return .tuple [← binary d .floorDivide "divmod()" a b, ← binary d .mod "divmod()" a b]
    | _ => typeError ("divmod expected 2 arguments, got " ++ toString args.length)
  | "pow" =>
    match args with
    | [a, b] => binary d .power "** or pow()" a b
    | [a, b, m] => do binary d .mod "%" (← binary d .power "** or pow()" a b) m
    | _ => typeError ("pow() missing required argument 'exp' (pos 2)")
  | "format" =>
    match args with
    | [v] => do return .text (← plainStep d v)
    | [v, .text layout] => do return .text (← laidOut d v layout)
    | _ => typeError "format() argument 2 must be str"
  | _ => raise "NotImplementedError" name

end Stencil.Script.Basic
