import Deadwood.Detection

namespace Deadwood

/-!
# Completed detections

A detection that ends without a fault has gone through all four of its stages.
What it read on the way is collected here in one structure, together with the
evidence that each stage succeeded on it, so that statements about completed runs
need not go through the stages again.
-/

/-- Everything that a completed run has read, and that it was read indeed. -/
structure CompletedRun (limits : Pool.Limits) (arguments : List String)
    (workspace : Workspace) where
  program : String
  name : String
  files : List String
  binary : Binary
  /-- The text of the symbol table, as far as it is read: the last fields of its
  function rows. -/
  table : List Char
  /-- The text of the disassembly. -/
  disassembly : List Char
  units : List CompilationUnit
  arguments_eq : arguments = program :: name :: files
  binary_eq : workspace.binaries.readable? name = some binary
  table_eq : Text.decode? (SymbolTable.functionFields binary.symbolTable) = some table
  disassembly_eq : Text.decode? binary.disassembly = some disassembly
  units_eq : (gather workspace.sources files workspace.cache).units = .ok units
  surveyed : (survey
    (Listing.functions (SymbolTable.names table) (Text.trimmedLines disassembly))
    limits ∅ units).stop = none

namespace CompletedRun

variable {limits : Pool.Limits} {arguments : List String} {workspace : Workspace}

/-- The lines of the disassembly, without their margins. -/
def listing (run : CompletedRun limits arguments workspace) : Listing :=
  Text.trimmedLines run.disassembly

/-- The functions of the binary. -/
def functions (run : CompletedRun limits arguments workspace) : NameSet :=
  run.listing.functions (SymbolTable.names run.table)

/-- The functions found to be used by the units and by the disassembly. -/
def used (run : CompletedRun limits arguments workspace) : NameSet :=
  (survey run.functions limits ∅ run.units).used ∪ run.listing.mentions

end CompletedRun

/-! ## The stages -/

theorem inspect_target_eq_ok_iff {binaries : Binaries} {name : String} {target : Target} :
    (inspect binaries name).target = .ok target ↔
      ∃ binary table disassembly, binaries.readable? name = some binary ∧
        Text.decode? (SymbolTable.functionFields binary.symbolTable) = some table ∧
        Text.decode? binary.disassembly = some disassembly ∧
        target = ⟨binary,
          Listing.functions (SymbolTable.names table) (Text.trimmedLines disassembly)⟩ := by
  unfold inspect Binary.symbols? Binary.listing?
  cases binaries.readable? name with
  | none => simp
  | some binary =>
      cases table : Text.decode? (SymbolTable.functionFields binary.symbolTable) with
      | none => simp [table]
      | some table =>
          cases disassembly : Text.decode? binary.disassembly with
          | none => simp [table, disassembly]
          | some disassembly => simp [table, disassembly, eq_comm]

theorem conclude_of_fault_eq_none {name : String} {target : Target} {used : NameSet}
    {report : Report} {disassembly : List Char}
    (read : Text.decode? target.binary.disassembly = some disassembly)
    (completed : (conclude name target used report).fault = none) :
    (conclude name target used report).report = .text (Report.render
      (target.functions \ (used ∪ Listing.mentions (Text.trimmedLines disassembly)))) := by
  unfold conclude Binary.listing? at completed ⊢
  simp only [read, Option.map_some] at completed ⊢
  cases report with
  | directory => cases completed
  | absent => rfl
  | text content => rfl

/-- A run without a fault is completed, and its report consists of the functions
that were not found to be used. -/
theorem exists_completedRun {limits : Pool.Limits} {arguments : List String}
    {workspace : Workspace} (completed : (detect limits arguments workspace).fault = none) :
    ∃ run : CompletedRun limits arguments workspace,
      (detect limits arguments workspace).report =
        .text (Report.render (run.functions \ run.used)) := by
  match arguments with
  | [] => cases completed
  | [_] => cases completed
  | [_, _] => cases completed
  | program :: name :: file :: files =>
      change (detectIn limits name (file :: files) workspace).fault = none at completed
      change ∃ run : CompletedRun limits _ workspace,
        (detectIn limits name (file :: files) workspace).report = _
      unfold detectIn at completed ⊢
      cases inspected : (inspect workspace.binaries name).target with
      | error fault => simp [inspected] at completed
      | ok target =>
          cases gathered : (gather workspace.sources (file :: files) workspace.cache).units with
          | error fault => simp [inspected, gathered] at completed
          | ok units =>
              rcases inspect_target_eq_ok_iff.mp inspected with
                ⟨binary, table, disassembly, found, tableRead, disassemblyRead, rfl⟩
              simp only [inspected, gathered] at completed ⊢
              split at completed
              · cases completed
              · rename_i surveyed
                refine ⟨⟨program, name, file :: files, binary, table, disassembly, units, rfl,
                  found, tableRead, disassemblyRead, gathered, surveyed⟩, ?_⟩
                exact conclude_of_fault_eq_none disassemblyRead completed

end Deadwood
