import Stencil.Script.Machine

/-!
The modules that a machine starts with: those of the library, each an object on the heap, joined to
the packages that they lie in.
-/

namespace Stencil.Script

def Library.Module.path? (m : Library.Module) (folders : Folders) : Option String :=
  m.file.map fun file => (if m.isOwn then folders.own else folders.library) ++ "/" ++ file

namespace Machine

def push (m : Machine) (o : Object) : Machine × Nat :=
  ({ m with heap := m.heap.push o }, m.heap.size)

def pushTexts (m : Machine) : Option (List String) → Machine × Option Value
  | none => (m, none)
  | some items =>
    let (m, ref) := m.push (.list (items.map .text))
    (m, some (.object ref))

def withValue (attrs : Bindings Value) (name : String) : Option Value → Bindings Value
  | none => attrs
  | some v => attrs.set name v

def addLibraryModule (m : Machine) (l : Library.Module) : Machine :=
  let path := l.path? m.folders
  let (m, search) := m.pushTexts (if l.isPackage then path.map fun p => [Path.parent p] else none)
  let (m, offered) := m.pushTexts l.offered
  let package := if l.isPackage then l.name else (Library.split l.name).1
  let attrs := Bindings.ofList
    [("__name__", Value.text l.name), ("__doc__", .none), ("__package__", .text package),
     ("__loader__", .none), ("__spec__", .none)]
  let attrs := withValue attrs "__path__" search
  let attrs := withValue attrs "__file__" (path.map .text)
  let attrs := attrs.merge (.ofList l.values)
  let attrs := withValue attrs "__all__" offered
  let (m, ref) := m.push (.module attrs)
  { m with modules := m.modules.set l.name (.object ref) }

def join (m : Machine) (name : String) : Machine :=
  let (parent, short) := Library.split name
  match m.modules.get? parent, m.modules.get? name with
  | some (.object package), some v => m.setAttribute package short v
  | _, _ => m

def start (folders : Folders) (files : Files) : Machine :=
  let m := Library.modules.foldl addLibraryModule { folders, files }
  (Library.modules.map (·.name)).foldl join m

end Machine

end Stencil.Script
