import Deadwood.Survey
import Deadwood.Workspace

namespace Deadwood

/-!
# Detection of dead functions

A function of a binary is dead when no given source file and no line of the
disassembly mentions it.  Detection goes through four stages.  It inspects the
binary for its functions, gathers the compilation units of the source files,
surveys them for mentions, and concludes with the mentions in the disassembly and
the report.

The symbol table alone is no inventory: it also names functions without any code.
Only those whose code the disassembly shows are considered.  Conversely, code may
be called from functions whose source is not given, and this is why mentions in
the disassembly count as well.

Each stage can fail, and a failing stage is the last one.  The report is not
touched before the very end, whereas the cache keeps what was saved to it.
-/

/-- Why a detection ends early. -/
inductive Fault where
  /-- The argument list lacks even the name of the program. -/
  | noProgramName
  | usage
  | dumperFailed
  /-- The object dumper printed something that is not UTF-8. -/
  | undecodable
  | gathering (fault : GatherFault)
  | survey (stop : Stop)
  | reportIsDirectory
deriving DecidableEq

/-- The exit code of the program where it exits by itself.  A run that is stuck
has none, and neither has one that breaks on its input. -/
def Fault.exitCode? : Fault → Option Nat
  | .usage => some 1
  | .dumperFailed => some 1
  | .survey stop => stop.exitCode?
  | _ => none

/-- A binary that was inspected, with the functions it contains. -/
structure Target where
  binary : Binary
  functions : NameSet

/-- What came of inspecting a binary, which changes nothing. -/
structure Inspection where
  target : Except Fault Target
  log : Log

/-- What came of the last stage. -/
structure Conclusion where
  fault : Option Fault
  report : Report
  log : Log

/-- What came of a whole run. -/
structure Detection where
  fault : Option Fault
  cache : Cache
  report : Report
  log : Log

/-- Find the functions of a binary. -/
def inspect (binaries : Binaries) (name : String) : Inspection :=
  let checking := Log.announce "[-] Extracting list of functions from ELF..." ++
    [.check (Binary.checkCommand name)]
  match binaries.readable? name with
  | none =>
      ⟨.error .dumperFailed,
        checking ++ Log.announce ("Failed to launch " ++ Binary.dumper ++ "...")⟩
  | some binary =>
      let extracting := checking ++ [.read (Binary.functionsCommand name)]
      match binary.symbols? with
      | none => ⟨.error .undecodable, extracting⟩
      | some symbols =>
          let cleaning := extracting ++
            Log.announce "[-] Cleaning up list of functions from ELF..." ++
            [.read (Binary.listingCommand name)]
          match binary.listing? with
          | none => ⟨.error .undecodable, cleaning⟩
          | some listing => ⟨.ok ⟨binary, listing.functions symbols⟩, cleaning⟩

/-- Read the disassembly for mentions and report the functions that are not used.
The listing is produced a second time for this. -/
def conclude (name : String) (target : Target) (used : NameSet) (report : Report) : Conclusion :=
  let reading : Log := [.read (Binary.listingCommand name)]
  match target.binary.listing? with
  | none => ⟨some .undecodable, report, reading⟩
  | some listing =>
      let dead := target.functions \ (used ∪ listing.mentions)
      let writing := reading ++
        Log.announce ("[-] Generating output: '" ++ Report.location ++ "' file...")
      match report.write? (Report.render dead) with
      | none => ⟨some .reportIsDirectory, report, writing⟩
      | some written => ⟨none, written, writing ++ Log.announce "[-] Done."⟩

/-- Detect the dead functions of the binary `name`, given source files. -/
def detectIn (limits : Pool.Limits) (name : String) (files : List String)
    (workspace : Workspace) : Detection :=
  let inspected := inspect workspace.binaries name
  match inspected.target with
  | .error fault => ⟨some fault, workspace.cache, workspace.report, inspected.log⟩
  | .ok target =>
      let gathered := gather workspace.sources files workspace.cache
      match gathered.units with
      | .error fault =>
          ⟨some (.gathering fault), gathered.cache, workspace.report,
            inspected.log ++ gathered.log⟩
      | .ok units =>
          let surveyed := survey target.functions limits ∅ units
          match surveyed.stop with
          | some stop =>
              ⟨some (.survey stop), gathered.cache, workspace.report,
                inspected.log ++ gathered.log ++ surveyed.log⟩
          | none =>
              let concluded := conclude name target surveyed.used workspace.report
              ⟨concluded.fault, gathered.cache, concluded.report,
                inspected.log ++ gathered.log ++ surveyed.log ++ concluded.log⟩

/-- Run the program on its arguments: its own name, the binary, and at least one
source file. -/
def detect (limits : Pool.Limits) (arguments : List String) (workspace : Workspace) : Detection :=
  match arguments with
  | [] => ⟨some .noProgramName, workspace.cache, workspace.report, []⟩
  | _ :: name :: file :: files => detectIn limits name (file :: files) workspace
  | program :: _ =>
      ⟨some .usage, workspace.cache, workspace.report,
        Log.announce ("Usage: " ++ program ++ " ELF preprocessed_source_files")⟩

end Deadwood
