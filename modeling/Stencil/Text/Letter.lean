/-!
Letters of names. Beyond ASCII a name may hold the letters of every script; marks and digits may
follow the first one.
-/

namespace Stencil.Text

/-- Ranges beyond ASCII whose characters belong to no name: punctuation, symbols, spaces, private
use. -/
def nameless : List (Nat × Nat) :=
  [(0x80, 0xA9), (0xAB, 0xB4), (0xB6, 0xB6), (0xB8, 0xB9), (0xBB, 0xBF), (0xD7, 0xD7), (0xF7, 0xF7),
   (0x2C2, 0x2C5), (0x2D2, 0x2DF), (0x37E, 0x37E), (0x55A, 0x55F), (0x589, 0x58A), (0x5BE, 0x5BE),
   (0x600, 0x60F), (0x61B, 0x61F), (0x964, 0x965), (0x1680, 0x1680), (0x2000, 0x203E),
   (0x2041, 0x2053), (0x2055, 0x2070), (0x2072, 0x207E), (0x2080, 0x208F), (0x20A0, 0x20CF),
   (0x2100, 0x2101), (0x2116, 0x2117), (0x2190, 0x2BFF), (0x2E00, 0x2E7F), (0x3000, 0x3004),
   (0x3008, 0x3020), (0x3030, 0x3030), (0x303D, 0x3040), (0x30FB, 0x30FB), (0xD800, 0xF8FF),
   (0xFE10, 0xFE1F), (0xFE30, 0xFE32), (0xFE35, 0xFE4C), (0xFE50, 0xFE6F), (0xFEFF, 0xFF0F),
   (0xFF1A, 0xFF20), (0xFF3B, 0xFF3E), (0xFF40, 0xFF40), (0xFF5B, 0xFF65), (0xFFE0, 0xFFFF),
   (0x1D000, 0x1D3FF), (0x1F000, 0x1FAFF), (0xE0000, 0xE00FF), (0xE01F0, 0x10FFFF)]

/-- Ranges beyond ASCII that may follow in a name and not start it: marks and digits. -/
def following : List (Nat × Nat) :=
  [(0xB7, 0xB7), (0x300, 0x36F), (0x387, 0x387), (0x483, 0x487), (0x591, 0x5C7), (0x610, 0x61A),
   (0x64B, 0x669), (0x6F0, 0x6F9), (0x900, 0x903), (0x93A, 0x93C), (0x93E, 0x94F), (0x966, 0x96F),
   (0x203F, 0x2040), (0x2054, 0x2054), (0x20D0, 0x20F0), (0x302A, 0x302F), (0x3099, 0x309A),
   (0xFE00, 0xFE0F), (0xFE20, 0xFE2F), (0xFE33, 0xFE34), (0xFE4D, 0xFE4F), (0xFF10, 0xFF19),
   (0xFF3F, 0xFF3F), (0xE0100, 0xE01EF)]

private def within (ranges : List (Nat × Nat)) (c : Char) : Bool :=
  ranges.any fun (low, high) => low ≤ c.toNat && c.toNat ≤ high

def startsName (c : Char) : Bool :=
  if c.toNat < 0x80 then c.isAlpha || c == '_' else !within nameless c && !within following c

def continuesName (c : Char) : Bool :=
  if c.toNat < 0x80 then c.isAlphanum || c == '_' else !within nameless c

end Stencil.Text
