import Stencil.Text.Hex
import Stencil.Text.Hidden

/-!
Quoted text: the form in which a string or a run of bytes appears inside other values and in
messages. Single quotes are used unless the text holds one and no double quote; characters that
would not show are written as escapes.
-/

namespace Stencil.Text

def quoteFor (hasSingle hasDouble : Bool) : Char :=
  if hasSingle && !hasDouble then '"' else '\''

def escapedChar (c : Char) : List Char :=
  if c.toNat < 0x100 then '\\' :: 'x' :: hex 2 c.toNat
  else if c.toNat < 0x10000 then '\\' :: 'u' :: hex 4 c.toNat
  else '\\' :: 'U' :: hex 8 c.toNat

def quotedChar (quote c : Char) : List Char :=
  if c = quote ∨ c = '\\' then ['\\', c]
  else if c = '\n' then ['\\', 'n']
  else if c = '\r' then ['\\', 'r']
  else if c = '\t' then ['\\', 't']
  else if isShown c then [c]
  else escapedChar c

def quoted (s : String) : String :=
  let cs := s.toList
  let quote := quoteFor (cs.contains '\'') (cs.contains '"')
  String.ofList (quote :: cs.flatMap (quotedChar quote) ++ [quote])

def asciiOnly (s : String) : String :=
  String.ofList (s.toList.flatMap fun c => if c.toNat < 0x80 then [c] else escapedChar c)

/-- A byte is shown as its character where that is printable, else as two digits. -/
def quotedByte (quote : Char) (b : UInt8) : List Char :=
  let c := Char.ofNat b.toNat
  if b.toNat < 0x80 then
    if c.toNat < 0x20 ∨ c.toNat = 0x7F then
      if c = '\n' ∨ c = '\r' ∨ c = '\t' then quotedChar quote c else '\\' :: 'x' :: hex 2 b.toNat
    else quotedChar quote c
  else '\\' :: 'x' :: hex 2 b.toNat

def quotedBytes (bs : List UInt8) : String :=
  let quote := quoteFor (bs.contains 39) (bs.contains 34)
  String.ofList ('b' :: quote :: bs.flatMap (quotedByte quote) ++ [quote])

end Stencil.Text
