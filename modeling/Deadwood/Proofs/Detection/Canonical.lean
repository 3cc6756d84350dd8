import Deadwood.Proofs.Detection.Comparison

namespace Deadwood

/-!
# One report for every set of functions

A report has no escapes: names are divided by line feeds, and that is all.  It can be read
back because of what a name in it has been through.  The symbol table may contain names of
any kind, among them the empty one, and the same name any number of times.  But a name is
only reported if a line of the disassembly opens its code, and in such a line it is a
word of ASCII characters.  So every reported name takes up one line, and two completed runs
write the same text exactly if they have found the same functions to be dead, whatever
their inputs have in common otherwise.
-/

namespace CompletedRun

variable {limits : Pool.Limits} {arguments : List String} {workspace : Workspace}

/-- Whatever the symbol table contains, the functions of a binary have proper names. -/
theorem isName_of_mem_functions (run : CompletedRun limits arguments workspace)
    {name : String} (contained : name ∈ run.functions) : Listing.IsName name := by
  rcases (run.mem_functions_iff.mp contained).2 with ⟨_, _, opens⟩
  exact opens.1

theorem fitsLine_of_unused (run : CompletedRun limits arguments workspace) :
    ∀ name ∈ run.functions \ run.used, Report.FitsLine name := by
  intro name member
  exact (run.mem_functions_sdiff_used_iff.mp member).fitsLine

end CompletedRun

/-- The report of a completed run is empty if no function is dead.  Otherwise it consists of
the dead functions, one a line, in strictly ascending order, and each has a proper name.
Any other completed run writes the same report if and only if it finds the same functions
dead. -/
theorem detect_report_canonical {limits : Pool.Limits} {arguments : List String}
    {workspace : Workspace} (completed : (detect limits arguments workspace).fault = none) :
    ∃ (run : CompletedRun limits arguments workspace) (content : String),
      (detect limits arguments workspace).report = .text content ∧
      (content = "" ↔ run.functions \ run.used = ∅) ∧
      (content ≠ "" → ∃ lines : List String,
        content.toList.splitOn '\n' = lines.map String.toList ∧
        lines.Pairwise (· < ·) ∧ (∀ name ∈ lines, Listing.IsName name) ∧
        ∀ name, name ∈ lines ↔ name ∈ run.functions ∧ name ∉ run.used) ∧
      ∀ (others : Pool.Limits) (otherArguments : List String) (otherWorkspace : Workspace),
        (detect others otherArguments otherWorkspace).fault = none →
        ∃ other : CompletedRun others otherArguments otherWorkspace,
          (detect others otherArguments otherWorkspace).report = .text content ↔
            other.functions \ other.used = run.functions \ run.used := by
  rcases exists_completedRun completed with ⟨run, written⟩
  have fits := run.fitsLine_of_unused
  refine ⟨run, _, written, Report.render_eq_empty_iff fits, ?_, ?_⟩
  · intro listed
    refine ⟨_, Report.splitOn_render fits listed, NameSet.pairwise_toList _, ?_, ?_⟩
    · intro name member
      rw [Std.ExtTreeSet.mem_toList, Std.ExtTreeSet.mem_diff_iff] at member
      exact run.isName_of_mem_functions member.1
    · intro name
      rw [Std.ExtTreeSet.mem_toList, Std.ExtTreeSet.mem_diff_iff]
  · intro others otherArguments otherWorkspace again
    rcases exists_completedRun again with ⟨other, rewritten⟩
    refine ⟨other, ?_⟩
    rw [rewritten, Report.text.injEq]
    exact Report.render_inj other.fitsLine_of_unused fits

/-- The last field of the first row contains an empty name, one name is not ASCII and
another one comes twice. -/
def oddSymbols : Workspace where
  sources := (∅ : Sources).insert "x.c" {}
  binaries := (∅ : Binaries).insert "a.elf"
    { symbolTable := "0 g F .text 0 b\r\ra\n0 g F .text 0 é\n0 g F .text 0 a\n".toUTF8
      disassembly := "00 <b>:\n00 <>:\n00 <é>:\n00 <a>:\n".toUTF8 }

theorem detect_report_canonical_oddSymbols :
    (detect (fun _ => 1) ["detect", "a.elf", "x.c"] oddSymbols).fault = none ∧
    (detect (fun _ => 1) ["detect", "a.elf", "x.c"] oddSymbols).report = .text "a\nb" ∧
    ∃ run : CompletedRun (fun _ => 1) ["detect", "a.elf", "x.c"] oddSymbols,
      "" ∈ SymbolTable.names run.table ∧ "é" ∈ SymbolTable.names run.table ∧
      ∀ name, name ∈ ["a", "b"] ↔ name ∈ run.functions ∧ name ∉ run.used := by
  have evaluated : (detect (fun _ => 1) ["detect", "a.elf", "x.c"] oddSymbols).fault = none ∧
      (detect (fun _ => 1) ["detect", "a.elf", "x.c"] oddSymbols).report = .text "a\nb" := by
    decide +kernel
  rcases evaluated with ⟨completed, written⟩
  rcases detect_report_canonical completed with ⟨run, content, same, _, decoded, _⟩
  cases same.symm.trans written
  rcases decoded (by decide) with ⟨lines, cut, _, _, members⟩
  have two : lines = ["a", "b"] := by
    apply (List.map_inj_right fun _ _ => String.toList_injective).mp
    rw [← cut]
    decide
  have read : (oddSymbols.binaries.readable? run.name).bind
      (fun binary => Text.decode? (SymbolTable.functionFields binary.symbolTable)) =
        some run.table := by
    rw [run.binary_eq]
    exact run.table_eq
  have odd : ((oddSymbols.binaries.readable? "a.elf").bind
      (fun binary => Text.decode? (SymbolTable.functionFields binary.symbolTable))).map
      (fun table => decide ("" ∈ SymbolTable.names table ∧ "é" ∈ SymbolTable.names table)) = some true := by
    decide +kernel
  rw [run.name_eq] at read
  rw [read, Option.map_some, Option.some.injEq, decide_eq_true_eq] at odd
  rw [two] at members
  exact ⟨completed, written, run, odd.1, odd.2, members⟩

end Deadwood
