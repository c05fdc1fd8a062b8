import Stencil.Datum

/-!
Type terms: the types that a template or its model may have. A term is what a type expression has
become: unions are flat and hold no member twice, and arguments stand in their final order. Two
spellings of one alias are different terms; two orders of one union are the same.
-/

namespace Stencil

inductive UnionStyle where
  | named
  | bar
  deriving DecidableEq, Repr

inductive TypeTerm where
  /-- The value that stands for the absence of one, as an argument. -/
  | none
  /-- The class of that value. -/
  | noneClass
  | ellipsis
  | builtin (name : String)
  /-- A class by module and qualified name, with its type variables and the bases it names. -/
  | named (module : Option String) (name : String) (typeVariables : List String) (bases : List TypeTerm)
  /-- A special form. -/
  | form (name : String)
  /-- An alias without arguments, for the given class. -/
  | aliasOf (name : String) (origin : TypeTerm)
  /-- A definition with arguments; an alias keeps the name it was applied under. -/
  | applied (spelled : Option String) (origin : TypeTerm) (arguments : List TypeTerm)
  | union (style : UnionStyle) (members : List TypeTerm)
  | literal (values : List Datum)
  | free (name : String)
  | parameters (name : String)
  | newType (module name : String)
  /-- A type that is only known by the text of its name. -/
  | forward (text : String)
  | items (types : List TypeTerm)
  | value (datum : Datum)
  deriving Inhabited

namespace TypeTerm

def sameLiteral (a b : Datum) : Bool :=
  a.kind == b.kind && a.same b

def literalsWithin (as bs : List Datum) : Bool :=
  as.all fun a => bs.any (sameLiteral a)

mutual

def same : TypeTerm → TypeTerm → Bool
  | none, none => true
  | noneClass, noneClass => true
  | ellipsis, ellipsis => true
  | builtin a, builtin b => a == b
  | named m a vs as, named n b ws bs => m == n && a == b && vs == ws && sameItems as bs
  | form a, form b => a == b
  | aliasOf a _, aliasOf b _ => a == b
  | applied s o as, applied t p bs => s == t && same o p && sameItems as bs
  | union _ as, union _ bs => as.length == bs.length && within as bs
  | literal as, literal bs => as.length == bs.length && literalsWithin as bs
  | free a, free b => a == b
  | parameters a, parameters b => a == b
  | newType m a, newType n b => m == n && a == b
  | forward a, forward b => a == b
  | items as, items bs => sameItems as bs
  | value a, value b => a.same b
  | _, _ => false

def sameItems : List TypeTerm → List TypeTerm → Bool
  | [], [] => true
  | a :: as, b :: bs => same a b && sameItems as bs
  | _, _ => false

def within : List TypeTerm → List TypeTerm → Bool
  | [], _ => true
  | a :: as, bs => bs.any (same a) && within as bs

end

def moduleAndName : Option String → String → String
  | some m, name => m ++ "." ++ name
  | Option.none, name => name

mutual

def part : TypeTerm → String
  | none => "None"
  | noneClass => "NoneType"
  | ellipsis => "..."
  | builtin name => name
  | named m name _ _ => moduleAndName m name
  | form name => "typing." ++ name
  | aliasOf name _ => "typing." ++ name
  | applied (some name) _ as => "typing." ++ name ++ "[" ++ ", ".intercalate (parts as) ++ "]"
  | applied Option.none origin as => part origin ++ "[" ++ ", ".intercalate (parts as) ++ "]"
  | union .named [noneClass, a] => "typing.Optional[" ++ part a ++ "]"
  | union .named [a, noneClass] => "typing.Optional[" ++ part a ++ "]"
  | union .named as => "typing.Union[" ++ ", ".intercalate (parts as) ++ "]"
  | union .bar as => " | ".intercalate (parts as)
  | literal vs => "typing.Literal[" ++ ", ".intercalate (vs.map Datum.quoted) ++ "]"
  | free name => "~" ++ name
  | parameters name => "~" ++ name
  | newType m name => m ++ "." ++ name
  | forward text => "ForwardRef(" ++ Text.quoted text ++ ")"
  | items as => "[" ++ ", ".intercalate (parts as) ++ "]"
  | value d => d.quoted

def parts : List TypeTerm → List String
  | [] => []
  | t :: ts => part t :: parts ts

end

mutual

def shown : TypeTerm → String
  | ellipsis => "Ellipsis"
  | noneClass => "<class 'NoneType'>"
  | builtin name => "<class '" ++ name ++ "'>"
  | named (some "builtins") name _ _ => "<class '" ++ name ++ "'>"
  | named m name _ _ => "<class '" ++ moduleAndName m name ++ "'>"
  | items as => "[" ++ ", ".intercalate (shownItems as) ++ "]"
  | t => part t

def shownItems : List TypeTerm → List String
  | [] => []
  | t :: ts => shown t :: shownItems ts

end

def addNew (known new : List String) : List String :=
  new.foldl (fun l n => if l.contains n then l else l ++ [n]) known

mutual

/-- The type variables of a type that are still open, in order of first occurrence. -/
def typeVariables : TypeTerm → List String
  | free name => [name]
  | applied _ _ as => variablesOf as
  | union _ as => variablesOf as
  | items as => variablesOf as
  | _ => []

def variablesOf : List TypeTerm → List String
  | [] => []
  | t :: ts => addNew (typeVariables t) (variablesOf ts)

end

end TypeTerm

end Stencil
