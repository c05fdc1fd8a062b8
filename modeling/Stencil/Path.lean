import Stencil.Text.Lines

/-!
Paths as texts of segments between slashes. The normal form has no empty segments and no segment that
means the folder itself; a segment that means the folder above stays, since only the files can tell
where it leads.
-/

namespace Stencil.Path

def segments (path : String) : List String :=
  (Text.pieces '/' path).filter fun s => s != "" && s != "."

def isAbsolute (path : String) : Bool := path.startsWith "/"

/-- What a normal path starts with: exactly two slashes are kept, any other number counts once. -/
def root (path : String) : String :=
  if path.startsWith "///" then "/" else if path.startsWith "//" then "//"
  else if path.startsWith "/" then "/" else ""

def normal (path : String) : String :=
  match root path ++ "/".intercalate (segments path) with
  | "" => "."
  | p => p

def name (path : String) : String := (segments path).getLast?.getD ""

def parent (path : String) : String :=
  normal (root path ++ "/".intercalate (segments path).dropLast)

/-- The name without its last extension; a name that only begins with a dot has none. -/
def stem (path : String) : String :=
  let n := (name path).toList
  let after := n.reverse.takeWhile (· != '.')
  let before := n.take (n.length - after.length - 1)
  if after.length = n.length || before.all (· == '.') || after.isEmpty then String.ofList n
  else String.ofList before

def join (folder path : String) : String :=
  if isAbsolute path then path
  else if folder == "" || folder.endsWith "/" then folder ++ path
  else folder ++ "/" ++ path

end Stencil.Path
