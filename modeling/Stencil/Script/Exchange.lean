import Stencil.Script.Sequence

/-!
Handing data over: a datum becomes a value with objects of its own, and a value that holds data only
becomes a datum again.
-/

namespace Stencil.Script.Run

mutual

def ofDatum : Datum → Run Value
  | .null => return .none
  | .bool b => return .bool b
  | .int i => return .int i
  | .float x => return .float x
  | .text s => return .text s
  | .bytes bs => return .bytes bs
  | .tuple items => do return .tuple (← ofData items)
  | .list items => do newList (← ofData items)
  | .table entries => do new (.dict (← ofEntries entries))
  | .object kind shown => new (.foreign kind shown)

def ofData : List Datum → Run (List Value)
  | [] => return []
  | d :: ds => do return (← ofDatum d) :: (← ofData ds)

def ofEntries : List (Datum × Datum) → Run (List (Value × Value))
  | [] => return []
  | (k, v) :: rest => do return (← ofDatum k, ← ofDatum v) :: (← ofEntries rest)

end

end Stencil.Script.Run
