/-!
Tokens of template source and where they stand. A position counts lines from one and columns from
zero, both in characters and in UTF-8 bytes: messages about the text use the first, nodes that run
the second.
-/

namespace Stencil.Script

structure Pos where
  line : Nat
  column : Nat
  byte : Nat
  deriving DecidableEq, Repr, Inhabited

inductive TokenKind where
  | name (text : String)
  | number (text : String)
  /-- A string with the letters before its quote and the raw text between its quotes. -/
  | string (marks body : String) (triple : Bool)
  | op (text : String)
  | newline
  | indent
  | dedent
  | finish
  deriving DecidableEq, Repr, Inhabited

structure Token where
  kind : TokenKind
  start : Pos
  stop : Pos
  /-- The column that a message about this token names, from one. -/
  offset : Nat
  deriving Repr, Inhabited

inductive FaultKind where
  | general
  | indentation
  | tabs
  deriving DecidableEq, Repr

structure SyntaxFault where
  kind : FaultKind
  message : String
  line : Nat
  offset : Nat
  deriving DecidableEq, Repr

def FaultKind.name : FaultKind → String
  | general => "SyntaxError"
  | indentation => "IndentationError"
  | tabs => "TabError"

inductive Ending where
  | complete
  /-- No token can be read, which counts wherever reading came to. -/
  | fault (fault : SyntaxFault)
  /-- No token can be read, which counts only where reading comes to it; of the brackets that are
  open then, the innermost is given. -/
  | halted (fault : SyntaxFault) (bracket : Option (Char × Pos))
  deriving Repr

structure TokenStream where
  tokens : Array Token
  ending : Ending

end Stencil.Script
