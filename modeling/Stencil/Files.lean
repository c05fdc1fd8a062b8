import Stencil.Bindings
import Stencil.Path

/-!
Files: folders and the texts in them, by absolute path. Relative paths are taken from a working
folder. A path leads somewhere only if all folders on its way exist.
-/

namespace Stencil

structure Files where
  working : String := "/"
  /-- All folders, by their segments, in the order in which they were made. -/
  folders : List (List String) := []
  texts : List (List String × String) := []
  deriving Inhabited

namespace Files

def hasFolder (f : Files) (place : List String) : Bool :=
  place.isEmpty || f.folders.contains place

def follow (f : Files) : List String → List String → Option (List String)
  | at_, [] => some at_.reverse
  | at_, s :: rest =>
    if !f.hasFolder at_.reverse then none
    else if s == ".." then follow f at_.tail rest
    else follow f (s :: at_) rest

def place? (f : Files) (path : String) : Option (List String) :=
  f.follow [] (Path.segments (Path.join f.working path))

def absolute (place : List String) : String := "/" ++ "/".intercalate place

def isFolder (f : Files) (path : String) : Bool :=
  match f.place? path with
  | some p => f.hasFolder p
  | none => false

def text? (f : Files) (path : String) : Option String :=
  (f.place? path).bind fun p => f.texts.lookup p

def isFile (f : Files) (path : String) : Bool := (f.text? path).isSome

def holds (f : Files) (path : String) : Bool := f.isFolder path || f.isFile path

def beginnings {α : Type} : List α → List (List α)
  | [] => [[]]
  | a :: as => [] :: (beginnings as).map (a :: ·)

def makeFolder (f : Files) (place : List String) : Files :=
  { f with folders := f.folders ++ ((beginnings place).filter fun p =>
      !p.isEmpty && !f.folders.contains p) }

def put (f : Files) (place : List String) (text : String) : Files :=
  let f := f.makeFolder place.dropLast
  { f with texts := f.texts.filter (fun t => t.1 != place) ++ [(place, text)] }

def ofTexts (working : String) (texts : List (String × String)) (folders : List String) : Files :=
  let root := Path.segments working
  let start := makeFolder { working } root
  let filled := texts.foldl (fun f (path, text) => f.put (root ++ Path.segments path) text) start
  folders.foldl (fun f folder => f.makeFolder (root ++ Path.segments folder)) filled

def write? (f : Files) (path text : String) : Option Files :=
  match f.place? path with
  | none => none
  | some p =>
    if p.isEmpty || f.hasFolder p || !f.hasFolder p.dropLast then none
    else some { f with texts := f.texts.filter (fun t => t.1 != p) ++ [(p, text)] }

def removeFolder (f : Files) (path : String) : Files :=
  match f.place? path with
  | none => f
  | some p =>
    { f with
      folders := f.folders.filter fun q => !p.isPrefixOf q
      texts := f.texts.filter fun t => !p.isPrefixOf t.1 }

def foldersIn (f : Files) (path : String) : List String :=
  match f.place? path with
  | none => []
  | some p =>
    f.folders.filterMap fun q => if q.length = p.length + 1 && p.isPrefixOf q then q.getLast? else none

def textsIn (f : Files) (path : String) : List (String × String) :=
  match f.place? path with
  | none => []
  | some p =>
    f.texts.filterMap fun (q, text) =>
      if q.length = p.length + 1 && p.isPrefixOf q then q.getLast?.map (·, text) else none

end Files

end Stencil
