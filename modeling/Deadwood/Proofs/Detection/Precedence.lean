import Deadwood.Proofs.Detection.Completion
import Deadwood.Proofs.Detection.Stages
import Deadwood.Proofs.Survey.Endings
import Deadwood.Proofs.SymbolTable.Names

namespace Deadwood

/-!
# Which fault ends a detection

Several things can be wrong at once: too few arguments, an unreadable binary, a
garbled listing, a file that cannot be gathered, a failing worker, a directory in the
place of the report.  The relations below say for every combination how the run ends.
Each of their cases has all earlier stages succeed, so the order of the faults can be
read off them, and the run completes exactly if nothing is wrong.

The symbol table is taken to be proper text throughout.  The listing is produced
twice, but only the first reading can find that it is garbled.
-/

/-- What comes of inspecting a binary: a fault, or the functions it contains. -/
inductive Inspects (binaries : Binaries) (name : String) : Except Fault NameSet → Prop where
  | unreadable (refused : ∀ binary, binaries[name]? = some binary → binary.status ≠ 0) :
      Inspects binaries name (.error .dumperFailed)
  | garbled {binary : Binary} (found : binaries[name]? = some binary)
      (accepted : binary.status = 0) (undecodable : Text.decode? binary.disassembly = none) :
      Inspects binaries name (.error .undecodable)
  | inspected {binary : Binary} {table disassembly : List Char}
      (found : binaries[name]? = some binary) (accepted : binary.status = 0)
      (tableRead : Text.decode? (SymbolTable.functionFields binary.symbolTable) = some table)
      (disassemblyRead : Text.decode? binary.disassembly = some disassembly) :
      Inspects binaries name
        (.ok (Listing.functions (SymbolTable.names table) (Text.trimmedLines disassembly)))

/-- How a detection ends on its arguments: with a fault, or with none. -/
inductive Ends (limits : Pool.Limits) (workspace : Workspace) :
    List String → Option Fault → Prop where
  | nameless : Ends limits workspace [] (some .noProgramName)
  | misused {program : String} {rest : List String} (few : rest.length < 2) :
      Ends limits workspace (program :: rest) (some .usage)
  | uninspected {program name : String} {files : List String} {fault : Fault}
      (listed : files ≠ []) (failed : Inspects workspace.binaries name (.error fault)) :
      Ends limits workspace (program :: name :: files) (some fault)
  | ungathered {program name : String} {files : List String} {functions : NameSet}
      {fault : GatherFault} (listed : files ≠ [])
      (inspected : Inspects workspace.binaries name (.ok functions))
      (failed : (gather workspace.sources files workspace.cache).units = .error fault) :
      Ends limits workspace (program :: name :: files) (some (.gathering fault))
  | unsurveyed {program name : String} {files : List String} {functions : NameSet}
      {units : List CompilationUnit} {stop : Stop} (listed : files ≠ [])
      (inspected : Inspects workspace.binaries name (.ok functions))
      (gathered : (gather workspace.sources files workspace.cache).units = .ok units)
      (failed : (survey functions limits ∅ units).stop = some stop) :
      Ends limits workspace (program :: name :: files) (some (.survey stop))
  | unreported {program name : String} {files : List String} {functions : NameSet}
      {units : List CompilationUnit} (listed : files ≠ [])
      (inspected : Inspects workspace.binaries name (.ok functions))
      (gathered : (gather workspace.sources files workspace.cache).units = .ok units)
      (surveyed : (survey functions limits ∅ units).stop = none)
      (failed : workspace.report = .directory) :
      Ends limits workspace (program :: name :: files) (some .reportIsDirectory)
  | completed {program name : String} {files : List String} {functions : NameSet}
      {units : List CompilationUnit} (listed : files ≠ [])
      (inspected : Inspects workspace.binaries name (.ok functions))
      (gathered : (gather workspace.sources files workspace.cache).units = .ok units)
      (surveyed : (survey functions limits ∅ units).stop = none)
      (vacant : workspace.report ≠ .directory) :
      Ends limits workspace (program :: name :: files) none

/-! ## The stages -/

variable {limits : Pool.Limits} {arguments : List String} {workspace : Workspace}
  {binaries : Binaries} {name : String} {binary : Binary} {fault : Fault}
  {functions : NameSet} {ending : Option Fault}

theorem Binaries.readable?_eq_some_iff :
    binaries.readable? name = some binary ↔
      binaries[name]? = some binary ∧ binary.status = 0 := by
  simp only [readable?, Option.filter_eq_some_iff, decide_eq_true_eq]

theorem Binaries.readable?_eq_none_iff :
    binaries.readable? name = none ↔
      ∀ binary, binaries[name]? = some binary → binary.status ≠ 0 := by
  simp only [readable?, Option.filter_eq_none_iff, decide_eq_true_eq]

theorem Inspects.target_of_error (failed : Inspects binaries name (.error fault)) :
    (inspect binaries name).target = .error fault := by
  unfold inspect Binary.symbols? Binary.listing?
  cases failed with
  | unreadable refused => simp only [Binaries.readable?_eq_none_iff.mpr refused]
  | @garbled binary found accepted undecodable =>
      simp only [Binaries.readable?_eq_some_iff.mpr ⟨found, accepted⟩, undecodable,
        Option.map_none]
      cases Text.decode? (SymbolTable.functionFields binary.symbolTable) with
      | none => rfl
      | some table => rfl

theorem Inspects.exists_target (inspected : Inspects binaries name (.ok functions)) :
    ∃ target disassembly, (inspect binaries name).target = .ok target ∧
      target.functions = functions ∧
      Text.decode? target.binary.disassembly = some disassembly := by
  cases inspected with
  | inspected found accepted tableRead disassemblyRead =>
      refine ⟨⟨_, _⟩, _, ?_, rfl, disassemblyRead⟩
      exact inspect_target_eq_ok_iff.mpr ⟨_, _, _,
        Binaries.readable?_eq_some_iff.mpr ⟨found, accepted⟩, tableRead, disassemblyRead, rfl⟩

/-- The listing was read before, so only the place of the report can be in the way. -/
theorem conclude_fault_eq {target : Target} {used : NameSet} {report : Report}
    {disassembly : List Char}
    (read : Text.decode? target.binary.disassembly = some disassembly) :
    (conclude name target used report).fault =
      if report = .directory then some .reportIsDirectory else none := by
  unfold conclude Binary.listing?
  simp only [read, Option.map_some]
  cases report <;> rfl

theorem detect_of_listed {program : String} {files : List String} (listed : files ≠ []) :
    detect limits (program :: name :: files) workspace =
      detectIn limits name files workspace := by
  cases files with
  | nil => exact absurd rfl listed
  | cons file files => rfl

/-- A run ends as the relation says, whatever the symbol table. -/
theorem Ends.fault_eq (ends : Ends limits workspace arguments ending) :
    (detect limits arguments workspace).fault = ending := by
  cases ends with
  | nameless => rfl
  | @misused program rest few =>
      match rest with
      | [] => rfl
      | [name] => rfl
      | _ :: _ :: _ => exact absurd few (by simp)
  | uninspected listed failed =>
      rw [detect_of_listed listed, detectIn_of_uninspected failed.target_of_error]
  | ungathered listed inspected failed =>
      rcases inspected.exists_target with ⟨target, disassembly, read, same, decoded⟩
      rw [detect_of_listed listed, detectIn_of_ungathered read failed]
  | unsurveyed listed inspected gathered failed =>
      rcases inspected.exists_target with ⟨target, disassembly, read, rfl, decoded⟩
      rw [detect_of_listed listed, detectIn_of_unsurveyed read gathered failed]
  | unreported listed inspected gathered surveyed failed =>
      rcases inspected.exists_target with ⟨target, disassembly, read, rfl, decoded⟩
      rw [detect_of_listed listed, detectIn_of_surveyed read gathered surveyed]
      exact (conclude_fault_eq decoded).trans (if_pos failed)
  | completed listed inspected gathered surveyed vacant =>
      rcases inspected.exists_target with ⟨target, disassembly, read, rfl, decoded⟩
      rw [detect_of_listed listed, detectIn_of_surveyed read gathered surveyed]
      exact (conclude_fault_eq decoded).trans (if_neg vacant)

theorem exists_inspects
    (tabled : ∀ binary, binaries[name]? = some binary →
      (Text.decode? binary.symbolTable).isSome = true) :
    (∃ fault, Inspects binaries name (.error fault)) ∨
      ∃ functions, Inspects binaries name (.ok functions) := by
  cases readable : binaries.readable? name with
  | none => exact Or.inl ⟨_, .unreadable (Binaries.readable?_eq_none_iff.mp readable)⟩
  | some binary =>
      rcases Binaries.readable?_eq_some_iff.mp readable with ⟨found, accepted⟩
      rcases Option.isSome_iff_exists.mp (tabled binary found) with ⟨text, stored⟩
      rcases SymbolTable.exists_decode?_functionFields stored with ⟨table, tableRead⟩
      cases disassemblyRead : Text.decode? binary.disassembly with
      | none => exact Or.inl ⟨_, .garbled found accepted disassemblyRead⟩
      | some disassembly =>
          exact Or.inr ⟨_, .inspected found accepted tableRead disassemblyRead⟩

/-- Some ending applies, because each stage fails or hands over to the next. -/
theorem exists_ends (limits : Pool.Limits)
    (tabled : ∀ name binary, arguments[1]? = some name → workspace.binaries[name]? = some binary →
      (Text.decode? binary.symbolTable).isSome = true) :
    ∃ ending, Ends limits workspace arguments ending := by
  match arguments with
  | [] => exact ⟨_, .nameless⟩
  | [program] => exact ⟨_, .misused (by simp)⟩
  | [program, name] => exact ⟨_, .misused (by simp)⟩
  | program :: name :: file :: files =>
      have listed : file :: files ≠ [] := List.cons_ne_nil file files
      rcases exists_inspects fun binary => tabled name binary rfl with
        ⟨fault, failed⟩ | ⟨functions, inspected⟩
      · exact ⟨_, .uninspected listed failed⟩
      · cases gathered : (gather workspace.sources (file :: files) workspace.cache).units with
        | error fault => exact ⟨_, .ungathered listed inspected gathered⟩
        | ok units =>
            cases surveyed : (survey functions limits ∅ units).stop with
            | some stop => exact ⟨_, .unsurveyed listed inspected gathered surveyed⟩
            | none =>
                by_cases occupied : workspace.report = .directory
                · exact ⟨_, .unreported listed inspected gathered surveyed occupied⟩
                · exact ⟨_, .completed listed inspected gathered surveyed occupied⟩

theorem Fault.exitCode?_eq_one_iff :
    fault.exitCode? = some 1 ↔
      fault = .usage ∨ fault = .dumperFailed ∨ fault = .survey .workerFailed := by
  cases fault with
  | survey stop => cases stop <;> simp [exitCode?, Stop.exitCode?]
  | _ => simp [exitCode?]

theorem Ends.stop_cases {stop : Stop}
    (ends : Ends limits workspace arguments (some (.survey stop))) :
    stop = .workerFailed ∨ stop = .starved := by
  cases ends with
  | uninspected _ failed => cases failed
  | @unsurveyed _ _ _ functions units _ _ _ _ stopped =>
      rcases survey_stop_cases functions limits ∅ units with completed | failed | starved
      · rw [completed] at stopped
        cases stopped
      · rw [failed] at stopped
        exact Or.inl (Option.some.inj stopped).symm
      · rw [starved] at stopped
        exact Or.inr (Option.some.inj stopped).symm

/-! ## Reading the listing -/

theorem Binary.functionsCommand_ne_listingCommand (name : String) :
    functionsCommand name ≠ listingCommand name := by
  intro same
  have texts := congrArg String.toList same
  simp [functionsCommand, symbolCommand, listingCommand] at texts

/-- A garbled listing is found out by the first reading. -/
theorem inspect_reads_garbled_once {table : List Char} (found : binaries[name]? = some binary)
    (accepted : binary.status = 0)
    (tableRead : Text.decode? (SymbolTable.functionFields binary.symbolTable) = some table)
    (undecodable : Text.decode? binary.disassembly = none) :
    (inspect binaries name).log.count (.read (Binary.listingCommand name)) = 1 := by
  have readable := Binaries.readable?_eq_some_iff.mpr ⟨found, accepted⟩
  have different := Binary.functionsCommand_ne_listingCommand name
  unfold inspect Binary.symbols? Binary.listing?
  simp [readable, tableRead, undecodable, Log.count_read_announce, different]

/-- The ending of a run is decided by the first stage that fails.  Without such a stage
the run completes, and then the report is a file.  The exit code is one for wrong use,
for an unreadable binary and for a reported worker, and a survey that stops for another
reason is stuck.  The second reading of the listing never ends a run: where it cannot
be decoded it is read once. -/
theorem detect_ends_at_first_fault (limits : Pool.Limits) {arguments : List String}
    {workspace : Workspace}
    (tabled : ∀ name binary, arguments[1]? = some name → workspace.binaries[name]? = some binary →
      (Text.decode? binary.symbolTable).isSome = true) :
    (∀ ending, (detect limits arguments workspace).fault = ending ↔
      Ends limits workspace arguments ending) ∧
    ((detect limits arguments workspace).fault = none →
      ∃ content, (detect limits arguments workspace).report = .text content) ∧
    ((detect limits arguments workspace).fault.bind Fault.exitCode? = some 1 ↔
      Ends limits workspace arguments (some .usage) ∨
      Ends limits workspace arguments (some .dumperFailed) ∨
      Ends limits workspace arguments (some (.survey .workerFailed))) ∧
    (∀ stop, Ends limits workspace arguments (some (.survey stop)) →
      stop = .workerFailed ∨ stop = .starved) ∧
    ∀ name, arguments[1]? = some name →
      (detect limits arguments workspace).fault = some .undecodable →
      (detect limits arguments workspace).log.count (.read (Binary.listingCommand name)) = 1 := by
  have decided : ∀ ending, (detect limits arguments workspace).fault = ending ↔
      Ends limits workspace arguments ending := by
    intro ending
    constructor
    · intro ended
      rcases exists_ends limits tabled with ⟨actual, ends⟩
      rw [← ended, ends.fault_eq]
      exact ends
    · exact Ends.fault_eq
  refine ⟨decided, ?_, ?_, ?_, ?_⟩
  · intro completed
    rcases exists_completedRun completed with ⟨run, written⟩
    exact ⟨_, written⟩
  · rw [← decided, ← decided, ← decided]
    cases (detect limits arguments workspace).fault with
    | none => simp
    | some fault => simp only [Option.bind_some, Option.some.injEq, Fault.exitCode?_eq_one_iff]
  · intro stop ends
    exact ends.stop_cases
  · intro name named faulty
    cases (decided _).mp faulty with
    | uninspected listed failed =>
        cases named
        rw [detect_of_listed listed, detectIn_of_uninspected failed.target_of_error]
        cases failed with
        | garbled found accepted undecodable =>
            rcases Option.isSome_iff_exists.mp (tabled name _ rfl found) with ⟨text, stored⟩
            rcases SymbolTable.exists_decode?_functionFields stored with ⟨table, tableRead⟩
            exact inspect_reads_garbled_once found accepted tableRead undecodable

/-- A listing that is no text, no source file, and a directory in the place of the
report. -/
def garbledListing : Workspace where
  binaries := (∅ : Binaries).insert "a.elf"
    { symbolTable := "0 g F .text 0 f\n".toUTF8, disassembly := ⟨#[0x66, 0xFF]⟩ }
  report := .directory

/-- Of the three faults the one of the listing comes first. -/
theorem detect_ends_at_first_fault_garbledListing :
    (∀ name binary, ["detect", "a.elf", "x.c"][1]? = some name →
      garbledListing.binaries[name]? = some binary →
      (Text.decode? binary.symbolTable).isSome = true) ∧
    (detect (fun _ => 1) ["detect", "a.elf", "x.c"] garbledListing).fault = some .undecodable ∧
    Ends (fun _ => 1) garbledListing ["detect", "a.elf", "x.c"] (some .undecodable) ∧
    (detect (fun _ => 1) ["detect", "a.elf", "x.c"] garbledListing).log.count
      (.read (Binary.listingCommand "a.elf")) = 1 := by
  have tabled : ∀ name binary, ["detect", "a.elf", "x.c"][1]? = some name →
      garbledListing.binaries[name]? = some binary →
      (Text.decode? binary.symbolTable).isSome = true := by
    intro name binary named found
    cases named
    cases found
    decide +kernel
  have faulty : (detect (fun _ => 1) ["detect", "a.elf", "x.c"] garbledListing).fault =
      some .undecodable := by decide +kernel
  rcases detect_ends_at_first_fault (fun _ => 1) tabled with
    ⟨decided, _, _, _, once⟩
  exact ⟨tabled, faulty, (decided _).mp faulty, once "a.elf" rfl faulty⟩

end Deadwood
