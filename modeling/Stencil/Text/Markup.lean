/-!
Markup text. Five characters are written as entities, so that escaped text opens no tag, closes no
attribute and starts no entity of its own.
-/

namespace Stencil.Text

def entity? (c : Char) : Option String :=
  if c = '&' then some "&amp;"
  else if c = '<' then some "&lt;"
  else if c = '>' then some "&gt;"
  else if c = '"' then some "&quot;"
  else if c = '\'' then some "&#x27;"
  else none

def escapeChar (c : Char) : List Char :=
  match entity? c with
  | some e => e.toList
  | none => [c]

def escapeChars (s : List Char) : List Char :=
  s.flatMap escapeChar

def escapeMarkup (s : String) : String :=
  String.ofList (escapeChars s.toList)

end Stencil.Text
