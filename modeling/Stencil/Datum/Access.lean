import Stencil.Datum

/-!
Access: looking into data that comes from outside. A reading that does not fit the form of a datum is
empty, so that a caller can go through nested tables without asking at every step.
-/

namespace Stencil.Datum

def entries : Datum → List (Datum × Datum)
  | table es => es
  | _ => []

def elements : Datum → List Datum
  | list ds => ds
  | _ => []

def text? : Datum → Option String
  | text s => some s
  | _ => none

def asText (d : Datum) : String := d.text?.getD ""

def int? : Datum → Option Int
  | int i => some i
  | bool b => some (if b then 1 else 0)
  | _ => none

def asInt (d : Datum) : Int := d.int?.getD 0

def isYes : Datum → Bool
  | bool b => b
  | _ => false

def get? (d : Datum) (name : String) : Option Datum :=
  (d.entries.find? fun (k, _) => k.text? == some name).map Prod.snd

def get (d : Datum) (name : String) : Datum := (d.get? name).getD null

def textAt? (d : Datum) (name : String) : Option String := (d.get? name).bind text?

def textAt (d : Datum) (name : String) : String := (d.get name).asText

def listAt (d : Datum) (name : String) : List Datum := (d.get name).elements

def textsAt (d : Datum) (name : String) : List String := (d.listAt name).map asText

def ofFields (fields : List (String × Datum)) : Datum := table (fields.map fun (k, v) => (text k, v))

def ofTexts (ss : List String) : Datum := list (ss.map text)

def ofText? (s : Option String) : Datum := (s.map text).getD null

mutual

def mapTexts (f : String → String) : Datum → Datum
  | text s => text (f s)
  | tuple items => tuple (mapTextsIn f items)
  | list items => list (mapTextsIn f items)
  | table es => table (mapTextsBetween f es)
  | d => d

def mapTextsIn (f : String → String) : List Datum → List Datum
  | [] => []
  | d :: ds => mapTexts f d :: mapTextsIn f ds

def mapTextsBetween (f : String → String) : List (Datum × Datum) → List (Datum × Datum)
  | [] => []
  | (k, v) :: rest => (mapTexts f k, mapTexts f v) :: mapTextsBetween f rest

end

end Stencil.Datum
