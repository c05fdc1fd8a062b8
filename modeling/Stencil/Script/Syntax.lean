import Stencil.Script.Token

/-!
The syntax of template source: expressions and statements, each with the position that errors in it
are reported at.
-/

namespace Stencil.Script

inductive Literal where
  | none
  | ellipsis
  | bool (value : Bool)
  | int (value : Int)
  | float (value : Float)
  | text (value : String)
  | bytes (value : List UInt8)
  deriving Inhabited

inductive UnaryOp where
  | negative | positive | invert | not
  deriving DecidableEq, Repr

inductive BinaryOp where
  | add | sub | mul | divide | floorDivide | mod | power | matrix
  | bitAnd | bitOr | bitXor | shiftLeft | shiftRight
  deriving DecidableEq, Repr

inductive CompareOp where
  | eq | ne | lt | le | gt | ge | same | notSame | within | notWithin
  deriving DecidableEq, Repr

inductive Display where
  | list | set | generator | dict
  deriving DecidableEq, Repr

inductive ParameterKind where
  | positional | regular | rest | keyword | keywords
  deriving DecidableEq, Repr

mutual

inductive Expr where
  | literal (pos : Pos) (value : Literal)
  | name (pos : Pos) (id : String)
  /-- Text with expressions in it. -/
  | joined (pos : Pos) (parts : List TextPart)
  | tuple (pos : Pos) (items : List Expr)
  | list (pos : Pos) (items : List Expr)
  | set (pos : Pos) (items : List Expr)
  /-- Entries without a key spread their value. -/
  | dict (pos : Pos) (entries : List DictEntry)
  | unary (pos : Pos) (op : UnaryOp) (operand : Expr)
  | binary (pos : Pos) (op : BinaryOp) (left right : Expr)
  | both (pos : Pos) (items : List Expr)
  | either (pos : Pos) (items : List Expr)
  | compare (pos : Pos) (first : Expr) (rest : List Comparison)
  | call (pos : Pos) (callee : Expr) (arguments : List Argument)
  | member (pos : Pos) (namePos : Pos) (object : Expr) (name : String)
  | subscript (pos : Pos) (object index : Expr)
  | slice (pos : Pos) (start stop step : Option Expr)
  | lambda (pos : Pos) (parameters : List Parameter) (body : Expr)
  | conditional (pos : Pos) (test yes no : Expr)
  | starred (pos : Pos) (value : Expr)
  /-- For a dict, the element is a pair of key and value. -/
  | comprehension (pos : Pos) (display : Display) (element : Expr) (value : Option Expr)
      (clauses : List Clause)
  | yield (pos : Pos) (value : Option Expr)
  | yieldFrom (pos : Pos) (value : Expr)
  | assign (pos : Pos) (name : String) (value : Expr)

inductive TextPart where
  | text (value : String)
  /-- An expression, whether to quote its value, and a layout for it. -/
  | field (value : Expr) (conversion : Option Char) (layout : List TextPart)

inductive DictEntry where
  | entry (key : Option Expr) (value : Expr)

inductive Comparison where
  | comparison (op : CompareOp) (operand : Expr)

inductive Argument where
  | plain (value : Expr)
  | spread (value : Expr)
  | named (pos : Pos) (name : String) (value : Expr)
  | spreadNamed (value : Expr)

inductive Parameter where
  | parameter (pos : Pos) (kind : ParameterKind) (name : String) ( annotation default : Option Expr)

inductive Clause where
  | clause (target source : Expr) (conditions : List Expr)

end

instance : Inhabited Expr := ⟨.literal default .none⟩

mutual

inductive Stmt where
  | expr (pos : Pos) (value : Expr)
  | assign (pos : Pos) (targets : List Expr) (value : Expr)
  | augment (pos : Pos) (target : Expr) (op : BinaryOp) (value : Expr)
  | annotate (pos : Pos) (target annotation : Expr) (value : Option Expr) (bare : Bool)
  | ret (pos : Pos) (value : Option Expr)
  | raise (pos : Pos) (error cause : Option Expr)
  | delete (pos : Pos) (targets : List Expr)
  | pass (pos : Pos)
  | breakLoop (pos : Pos)
  | continueLoop (pos : Pos)
  | globals (pos : Pos) (names : List String)
  | nonlocals (pos : Pos) (names : List String)
  | importModules (pos : Pos) (modules : List (String × Option String))
  | importNames (pos : Pos) (level : Nat) (module : String) (names : List (String × Option String))
  /-- Imports all public names; the second position is that of the star. -/
  | importAll (pos starPos : Pos) (level : Nat) (module : String)
  | assert (pos : Pos) (test : Expr) (message : Option Expr)
  | branch (pos : Pos) (test : Expr) (yes no : List Stmt)
  | whileLoop (pos : Pos) (test : Expr) (body otherwise : List Stmt)
  | forLoop (pos : Pos) (target source : Expr) (body otherwise : List Stmt)
  | attempt (pos : Pos) (body : List Stmt) (handlers : List Handler) (otherwise final : List Stmt)
  | within (pos : Pos) (items : List (Expr × Option Expr)) (body : List Stmt)
  | function (pos : Pos) (decorators : List Expr) (name : String) (parameters : List Parameter)
      (result : Option Expr) (body : List Stmt)
  | cls (pos : Pos) (decorators : List Expr) (name : String) (arguments : List Argument)
      (body : List Stmt)

inductive Handler where
  | handler (pos : Pos) (kinds : Option Expr) (name : Option String) (body : List Stmt)

end

instance : Inhabited Stmt := ⟨.pass default⟩

namespace Expr

def pos : Expr → Pos
  | literal p _ | name p _ | joined p _ | tuple p _ | list p _ | set p _ | dict p _ | unary p _ _
  | binary p _ _ _ | both p _ | either p _ | compare p _ _ | call p _ _ | member p _ _ _
  | subscript p _ _ | slice p _ _ _ | lambda p _ _ | conditional p _ _ _ | starred p _
  | comprehension p _ _ _ _ | yield p _ | yieldFrom p _ | assign p _ _ => p

def description : Expr → String
  | literal _ .none => "None"
  | literal _ .ellipsis => "ellipsis"
  | literal _ (.bool b) => if b then "True" else "False"
  | literal _ _ => "literal"
  | name _ _ => "name"
  | joined _ _ => "f-string expression"
  | tuple _ _ => "tuple"
  | list _ _ => "list"
  | set _ _ => "set display"
  | dict _ _ => "dict literal"
  | unary _ _ _ | binary _ _ _ _ | both _ _ | either _ _ => "expression"
  | compare _ _ _ => "comparison"
  | call _ _ _ => "function call"
  | member _ _ _ _ => "attribute"
  | subscript _ _ _ => "subscript"
  | slice _ _ _ _ => "slice"
  | lambda _ _ _ => "lambda"
  | conditional _ _ _ _ => "conditional expression"
  | starred _ _ => "starred"
  | comprehension _ .list _ _ _ => "list comprehension"
  | comprehension _ .set _ _ _ => "set comprehension"
  | comprehension _ .dict _ _ _ => "dict comprehension"
  | comprehension _ .generator _ _ _ => "generator expression"
  | yield _ _ | yieldFrom _ _ => "yield expression"
  | assign _ _ _ => "named expression"

end Expr

namespace Stmt

def pos : Stmt → Pos
  | expr p _ | assign p _ _ | augment p _ _ _ | annotate p _ _ _ _ | ret p _ | raise p _ _
  | delete p _ | pass p | breakLoop p | continueLoop p | globals p _ | nonlocals p _
  | importModules p _ | importNames p _ _ _ | importAll p _ _ _ | assert p _ _ | branch p _ _ _
  | whileLoop p _ _ _ | forLoop p _ _ _ _ | attempt p _ _ _ _ | within p _ _
  | function p _ _ _ _ _ | cls p _ _ _ _ => p

def doc? : List Stmt → Option String
  | expr _ (.literal _ (.text s)) :: _ => some s
  | _ => none

end Stmt

structure Tree where
  body : List Stmt
  deriving Inhabited

end Stencil.Script
