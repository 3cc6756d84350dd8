import Deadwood.Detection

namespace Deadwood

/-!
# The command line

The program is given a binary and source files.  What the object dumper prints
about the binary is expected beside it, in files with the endings `.symbols` and
`.listing`, and each source file is expected as a dump of its syntax nodes.  The
workspace is read before the run; afterwards what the run has done is carried
out.
-/

/-! ## Dumps of syntax nodes

A compilation unit can be handed over as a text with one syntax node a line, in
preorder.  The fields of a line are divided by tabs: the grammatical name of the
node, which is empty for the node of the file, its spelling, and its tokens.
Lines with fewer than two fields are no nodes.
-/

namespace NodeDump

/-- The node with the given fields. -/
def node? : List (List Char) → Option Node
  | kind :: spelling :: tokens =>
      some
        { kind := if kind = [] then .file else .construct (String.ofList kind)
          spelling := String.ofList spelling
          tokens := some (tokens.map fun token => some (String.ofList token)) }
  | _ => none

/-- The unit of a dump.  Its worker ends at once and without failure. -/
def unit (dump : List Char) : CompilationUnit :=
  { nodes := (Text.feedLines dump).filterMap fun line => node? (Text.pieces '\t' line) }

/-- The unit of a dump stored as UTF-8. -/
def unit? (bytes : ByteArray) : Option CompilationUnit :=
  (Text.decode? bytes).map unit

end NodeDump

/-! ## Reading the workspace -/

namespace CommandLine

def readBytes? (path : String) : IO (Option ByteArray) := do
  try
    return some (← IO.FS.readBinFile path)
  catch _ =>
    return none

def readBinary? (name : String) : IO (Option Binary) := do
  let some symbolTable ← readBytes? (name ++ ".symbols") | return none
  let some disassembly ← readBytes? (name ++ ".listing") | return none
  return some { symbolTable := symbolTable, disassembly := disassembly }

def readEntry (bytes : ByteArray) : Entry :=
  match NodeDump.unit? bytes with
  | none => .corrupt
  | some unit => .saved unit

/-- The sources among the files, and the cache entries of the files. -/
def readFiles (files : List String) : IO Workspace := do
  let mut sources : Sources := ∅
  let mut entries : Std.ExtTreeMap String Entry := ∅
  for file in files do
    if let some unit := (← readBytes? file).bind NodeDump.unit? then
      sources := sources.insert file unit
    if let some bytes ← readBytes? (Cache.entryPath file) then
      entries := entries.insert (Cache.entryName file) (readEntry bytes)
  let cache := if entries.isEmpty then .absent else .directory entries
  return { sources := sources, cache := cache }

def readWorkspace : List String → IO Workspace
  | _ :: name :: files => do
      let workspace ← readFiles files
      match ← readBinary? name with
      | none => return workspace
      | some binary => return { workspace with binaries := (∅ : Binaries).insert name binary }
  | _ => return {}

/-! ## Carrying out a run -/

/-- Make the directory of the cache.  A run that has none afterwards did not get as
far as gathering. -/
def makeCache : Cache → IO Unit
  | .directory _ => IO.FS.createDirAll Cache.location
  | _ => return

/-- Carry out one event.  A unit is saved as a copy of the file parsed last. -/
def perform (parsed : String) : Event → IO String
  | .say line => do
      IO.println line
      return parsed
  | .parse file => return file
  | .save path => do
      IO.FS.writeBinFile path (← IO.FS.readBinFile parsed)
      return parsed
  | _ => return parsed

/-- Run the program.  The directory of the cache is there before any file is
handled, also if no unit is saved to it. -/
def run (arguments : List String) : IO UInt32 := do
  let detection := detect (.ofList []) arguments (← readWorkspace arguments)
  makeCache detection.cache
  let _ ← detection.log.foldlM perform ""
  if let .text content := detection.report then
    IO.FS.writeFile Report.location content
  match detection.fault with
  | none => return 0
  | some fault => return UInt32.ofNat (fault.exitCode?.getD 2)

end CommandLine
end Deadwood

def main (arguments : List String) : IO UInt32 :=
  Deadwood.CommandLine.run ("deadwood" :: arguments)
