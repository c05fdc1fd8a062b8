import Stencil.Datum
import Stencil.Report.Entry
import Stencil.Text.Blank
import Stencil.Text.Lines

/-!
Failure reports: everything a failed compilation has to say, with the line of source under each
entry that names a file, the folder that was left behind, and the template it came from.
-/

namespace Stencil.Report

structure Failure where
  entries : List Entry
  source : Option String
  folder : Option String
  template : Datum

namespace Failure

def errors (f : Failure) : List Entry :=
  f.entries.filter fun e => !e.isWarning

def warnings (f : Failure) : List Entry :=
  f.entries.filter fun e => e.isWarning

def hasErrors (f : Failure) : Bool :=
  !f.errors.isEmpty

def excerpt (lines : List (List Char)) (e : Entry) : List String :=
  if e.file = "" then []
  else
    match lines[e.line]? with
    | some line => ["     | " ++ String.ofList (Text.trimRight line)]
    | none => []

def entryLines (lines : List (List Char)) (e : Entry) : List String :=
  (" - " ++ e.summary) :: excerpt lines e

def folderLines : Option String → List String
  | none | some "" => []
  | some folder => ["Temporary files of the compilation are in " ++ folder ++ " (delete when done)."]

def templateLines : Datum → List String
  | .null => []
  | template => ["The template we tried to compile is:\n" ++ template.plain]

def message (f : Failure) : String :=
  let lines := Text.wideLines (f.source.getD "")
  "\n".intercalate
    ("Errors while compiling a template." :: f.entries.flatMap (entryLines lines)
      ++ folderLines f.folder ++ templateLines f.template)

end Failure

end Stencil.Report
