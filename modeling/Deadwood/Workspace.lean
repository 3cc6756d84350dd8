import Deadwood.Binary
import Deadwood.Gathering

namespace Deadwood

/-!
# The workspace

Everything outside the program that a run depends on or changes.  A run reads the
source files and the binaries, fills the cache, and writes the report.  Between
two runs the user may change any part of it.
-/

/-! ## The report

The dead functions are written to one file, in ascending order and divided by
line feeds.  There is no line feed after the last name, so no dead function at
all makes an empty file.
-/

/-- What stands in the place of the report. -/
inductive Report where
  | absent
  | text (content : String)
  | directory
deriving DecidableEq

namespace Report

def location : String := "deadFunctions"

def render (dead : NameSet) : String :=
  "\n".intercalate dead.toList

/-- Write the report anew.  A directory in its place cannot be written. -/
def write? (content : String) : Report → Option Report
  | .directory => none
  | _ => some (.text content)

example : render (.ofList ["b", "a_1", "b"]) = "a_1\nb" := by decide +kernel

end Report

structure Workspace where
  sources : Sources := ∅
  binaries : Binaries := ∅
  cache : Cache := .absent
  report : Report := .absent

/-! ## Edits -/

/-- A change made by the user.  `none` in the place of a source file, a binary or
an entry removes it. -/
inductive Edit where
  | source (file : String) (unit : Option CompilationUnit)
  | binary (name : String) (binary : Option Binary)
  | cache (cache : Cache)
  | entry (name : String) (entry : Option Entry)
  | report (report : Report)

/-- Set or remove the value of a key. -/
def assign {α : Type} (values : Std.ExtTreeMap String α) (key : String) :
    Option α → Std.ExtTreeMap String α
  | none => values.erase key
  | some value => values.insert key value

/-- Set or remove one entry.  Without a directory there is nowhere to put it. -/
def Cache.assignEntry (cache : Cache) (name : String) (entry : Option Entry) : Cache :=
  match cache with
  | .directory entries => .directory (assign entries name entry)
  | other => other

def Workspace.edit (workspace : Workspace) : Edit → Workspace
  | .source file unit => { workspace with sources := assign workspace.sources file unit }
  | .binary name binary => { workspace with binaries := assign workspace.binaries name binary }
  | .cache cache => { workspace with cache := cache }
  | .entry name entry => { workspace with cache := workspace.cache.assignEntry name entry }
  | .report report => { workspace with report := report }

end Deadwood
