import Stencil.Bindings
import Stencil.Number
import Stencil.Script.Syntax

/-!
Values that source computes with, and the objects behind those that can change. Numbers, text and
tuples are values in themselves; everything with an identity is an object on the heap, and a value
holds its place there.
-/

namespace Stencil.Script

inductive ClassRef where
  | library (name : String)
  | defined (ref : Nat)
  deriving DecidableEq, Repr, Inhabited

inductive Value where
  | none
  | ellipsis
  | notImplemented
  | bool (value : Bool)
  | int (value : Int)
  | float (value : Float)
  | text (value : String)
  | bytes (value : List UInt8)
  | tuple (items : List Value)
  | range (start stop step : Int)
  | slice (start stop step : Value)
  | cls (ref : ClassRef)
  /-- A function of the library, by its full name. -/
  | routine (name : String)
  /-- A method of the library with the value that it is called on. -/
  | bound (self : Value) (routine : String)
  /-- A special form of the typing vocabulary. -/
  | form (name : String)
  /-- A definition applied to type arguments. -/
  | aliasOf (origin : Value) (arguments : List Value)
  | object (ref : Nat)
  deriving Inhabited

structure Mark where
  file : String
  line : Nat
  byte : Nat := 0
  deriving DecidableEq, Repr, Inhabited

inductive Body where
  | expression (e : Expr)
  | statements (body : List Stmt)

/-- A function that source defined, with what it needs from where it was defined. -/
structure Closure where
  name : String
  path : String
  file : String
  parameters : List Parameter
  defaults : Bindings Value
  body : Body
  locals : List String
  globalNames : List String
  /-- The scopes of the functions around it, the innermost first. -/
  scopes : List Nat
  /-- The module whose names are global in it. -/
  globals : Nat
  /-- The class in whose body it was defined. -/
  owner : Option ClassRef
  isGenerator : Bool := false
  attributes : Bindings Value := {}

structure Class where
  name : String
  path : String
  bases : List ClassRef
  /-- The class and all it inherits from, in the order in which attributes are looked for. -/
  order : List ClassRef
  attributes : Bindings Value
  /-- The methods that still have to be defined before there can be instances. -/
  missing : List String := []
  deriving Inhabited

inductive Binding where
  | ofStatic | ofClass | ofProperty
  deriving DecidableEq, Repr

/-- What is left of an iteration: items that are still to come, and the error that ends it. -/
structure Remaining where
  items : List Value
  failure : Option Nat := none

inductive Object where
  | list (items : List Value)
  | dict (entries : List (Value × Value))
  | set (frozen : Bool) (items : List Value)
  | module (attributes : Bindings Value)
  | cls (c : Class)
  | function (f : Closure)
  | method (self function : Value)
  | wrapped (binding : Binding) (function : Value)
  | instance (cls : ClassRef) (attributes : Bindings Value)
  /-- An error with its arguments and the lines it came through, the first one innermost. -/
  | error (cls : ClassRef) (arguments : List Value) (attributes : Bindings Value)
      (trace : List Mark)
  | iterator (kind : String) (rest : Remaining)
  /-- The local names of a function call. -/
  | scope (locals : List String) (values : Bindings Value)
  /-- The attributes of another object, seen as a dict. -/
  | attributesOf (ref : Nat)
  /-- The rest of a class order after a class, on behalf of a value. -/
  | inherited (after : ClassRef) (self : Value)
  /-- Something from outside that is known by its kind and its printed form only. -/
  | foreign (kind shown : String)
  deriving Inhabited

namespace Value

def ofLiteral : Literal → Value
  | .none => none
  | .ellipsis => ellipsis
  | .bool b => bool b
  | .int i => int i
  | .float x => float x
  | .text s => text s
  | .bytes bs => bytes bs

def number? : Value → Option Number
  | bool b => some (.int (if b then 1 else 0))
  | int i => some (.int i)
  | float x => some (.float x)
  | _ => Option.none

def integer? : Value → Option Int
  | bool b => some (if b then 1 else 0)
  | int i => some i
  | _ => Option.none

def ofNumber : Number → Value
  | .int i => int i
  | .float x => float x

end Value

end Stencil.Script
