import Deadwood.Proofs.Detection.DeadFunctions
import Deadwood.Proofs.Detection.Stages
import Deadwood.Proofs.Gathering.Serving
import Deadwood.Proofs.Report.Names

namespace Deadwood

/-!
# Two runs on one binary

Two completed runs are compared here, which start from the same workspace and inspect
the same binary, but are given different source files.  They read the same symbol table
and the same disassembly.  So their reports can differ only by the units they gathered,
and a run that has all the units of another one reports no function that the other does
not report.  The limits of the two pools are unrelated throughout.

Further files only add to the units.  Files that are listed in a different order give the
same units and leave the same cache, as long as no two of them share a name.  If two of
them do, then the first one may be parsed for both, and the order can matter.
-/

namespace CompletedRun

variable {limits others : Pool.Limits} {arguments otherArguments : List String}
  {workspace : Workspace} {program name function : String} {files : List String}

theorem name_eq (run : CompletedRun limits (program :: name :: files) workspace) :
    run.name = name :=
  (List.cons.inj (List.cons.inj run.arguments_eq).2).1.symm

theorem gather_eq (run : CompletedRun limits (program :: name :: files) workspace) :
    (gather workspace.sources files workspace.cache).units = .ok run.units := by
  have listed : run.files = files := (List.cons.inj (List.cons.inj run.arguments_eq).2).2.symm
  have returned := run.units_eq
  rw [listed] at returned
  exact returned

/-- Runs on binaries of one name inspect one binary and read the same disassembly. -/
theorem binary_eq_of_name_eq (run : CompletedRun limits arguments workspace)
    (other : CompletedRun others otherArguments workspace) (same : run.name = other.name) :
    run.binary = other.binary ∧ run.disassembly = other.disassembly := by
  have binary : run.binary = other.binary := by
    apply Option.some.inj
    rw [← run.binary_eq, ← other.binary_eq, same]
  refine ⟨binary, ?_⟩
  apply Option.some.inj
  rw [← run.disassembly_eq, ← other.disassembly_eq, binary]

/-- What is dead in view of some units is dead in view of fewer. -/
theorem Dead.of_subset {run : CompletedRun limits arguments workspace}
    {other : CompletedRun others otherArguments workspace} (same : run.name = other.name)
    (included : other.units ⊆ run.units) (dead : run.Dead function) : other.Dead function := by
  rcases run.binary_eq_of_name_eq other same with ⟨binary, disassembly⟩
  have listing : run.listing = other.listing := congrArg Text.trimmedLines disassembly
  constructor
  · rw [← binary]
    exact dead.symbol
  · rw [← listing]
    exact dead.opened
  · rintro ⟨unit, member, refers⟩
    exact dead.unreferred ⟨unit, included member, refers⟩
  · rw [Mentions, ← listing]
    exact dead.unmentioned

/-- A dead function has a name that fits on a line. -/
theorem Dead.fitsLine {run : CompletedRun limits arguments workspace}
    (dead : run.Dead function) : Report.FitsLine function := by
  rcases dead.opened with ⟨line, _, ⟨nonempty, characters⟩, _⟩
  refine ⟨nonempty, ?_⟩
  intro divided
  cases characters '\n' divided

/-- The names that can be read off the report are the dead functions. -/
theorem mem_namesIn_iff (run : CompletedRun limits arguments workspace) :
    function ∈ Report.namesIn (Report.render (run.functions \ run.used)) ↔
      run.Dead function := by
  have fits : ∀ name ∈ run.functions \ run.used, Report.FitsLine name :=
    fun name member => (run.mem_functions_sdiff_used_iff.mp member).fitsLine
  rw [Report.namesIn_render fits, Std.ExtTreeSet.mem_toList, run.mem_functions_sdiff_used_iff]

end CompletedRun

theorem detect_cache_of_completed {limits : Pool.Limits} {workspace : Workspace}
    {program name : String} {files : List String}
    (completed : (detect limits (program :: name :: files) workspace).fault = none) :
    (detect limits (program :: name :: files) workspace).cache =
      (gather workspace.sources files workspace.cache).cache := by
  cases reached : gatheredFiles? workspace.binaries (program :: name :: files) with
  | none =>
      rcases detect_of_unreached limits reached with ⟨fault, log, _, ended⟩
      rw [ended] at completed
      cases completed
  | some gathered =>
      rcases exists_of_gatheredFiles? reached with ⟨_, _, _, _, _, same, rfl, _⟩
      cases same
      rw [detect_cache, reached]

/-- Files that have different names may be listed in any order, and the limits of the
pool may be any.  Two runs that complete write the same report and leave the same
cache. -/
theorem detect_independent_of_order {limits others : Pool.Limits} {workspace : Workspace}
    {program otherProgram name : String} {files reordered : List String}
    (same : reordered.Perm files) (distinct : (files.map Cache.basename).Nodup)
    (completed : (detect limits (program :: name :: files) workspace).fault = none)
    (again : (detect others (otherProgram :: name :: reordered) workspace).fault = none) :
    (∃ content, (detect limits (program :: name :: files) workspace).report = .text content ∧
      (detect others (otherProgram :: name :: reordered) workspace).report = .text content) ∧
    (detect others (otherProgram :: name :: reordered) workspace).cache =
      (detect limits (program :: name :: files) workspace).cache := by
  rcases exists_completedRun completed with ⟨run, written⟩
  rcases exists_completedRun again with ⟨other, rewritten⟩
  rcases Cache.gather_perm same distinct run.gather_eq other.gather_eq with ⟨units, caches⟩
  have named : run.name = other.name := run.name_eq.trans other.name_eq.symm
  have unused : run.functions \ run.used = other.functions \ other.used := by
    apply Std.ExtTreeSet.ext_mem
    intro function
    rw [run.mem_functions_sdiff_used_iff, other.mem_functions_sdiff_used_iff]
    constructor
    · intro dead
      exact dead.of_subset named units.subset
    · intro dead
      exact dead.of_subset named.symm units.symm.subset
  refine ⟨⟨_, written, ?_⟩, ?_⟩
  · rw [rewritten, unused]
  · rw [detect_cache_of_completed completed, detect_cache_of_completed again, caches]

/-- A binary of three functions, of which the two source files call one each.  The entry
of one file is spoiled. -/
def twoCallers : Workspace where
  sources := ((∅ : Sources).insert "src/x.c"
    { nodes := [⟨.construct "CALL_EXPR", "main", some [some "f"]⟩], polls := 2 }).insert
    "src/y.c" { nodes := [⟨.construct "CALL_EXPR", "main", some [some "g"]⟩] }
  binaries := (∅ : Binaries).insert "a.elf"
    { symbolTable := "0 g F .text 0 f\n0 g F .text 0 g\n0 g F .text 0 h\n".toUTF8
      disassembly := "00 <f>:\n00 <g>:\n00 <h>:\n".toUTF8 }
  cache := .directory ((∅ : Std.ExtTreeMap String Entry).insert "x.c_cache" .corrupt)

theorem detect_twoCallers :
    (detect (fun _ => 2) ["detect", "a.elf", "src/y.c", "src/x.c"] twoCallers).fault = none ∧
    (detect (fun _ => 2) ["detect", "a.elf", "src/y.c", "src/x.c"] twoCallers).report =
      .text "h" := by
  decide +kernel

/-- Two workers that take turns and two side by side, on the files in opposite orders. -/
theorem detect_independent_of_order_twoCallers :
    (detect (fun _ => 1) ["detect", "a.elf", "src/x.c", "src/y.c"] twoCallers).report =
      .text "h" ∧
    (detect (fun _ => 2) ["detect", "a.elf", "src/y.c", "src/x.c"] twoCallers).report =
      .text "h" ∧
    (detect (fun _ => 2) ["detect", "a.elf", "src/y.c", "src/x.c"] twoCallers).cache =
      (detect (fun _ => 1) ["detect", "a.elf", "src/x.c", "src/y.c"] twoCallers).cache := by
  have completed : (detect (fun _ => 1) ["detect", "a.elf", "src/x.c", "src/y.c"]
      twoCallers).fault = none := by decide +kernel
  have distinct : (["src/x.c", "src/y.c"].map Cache.basename).Nodup := by decide +kernel
  rcases detect_twoCallers with ⟨again, written⟩
  rcases detect_independent_of_order (List.Perm.swap _ _ _) distinct completed again with
    ⟨⟨content, first, second⟩, caches⟩
  rw [written] at second
  cases second
  exact ⟨first, written, caches⟩

/-- With further source files a run reports no function that it does not report without
them. -/
theorem detect_reports_fewer_with_more_files {limits others : Pool.Limits}
    {workspace : Workspace} {program otherProgram name : String} {files more : List String}
    (completed : (detect limits (program :: name :: files) workspace).fault = none)
    (extended : (detect others (otherProgram :: name :: (files ++ more)) workspace).fault =
      none) :
    ∃ content remaining,
      (detect limits (program :: name :: files) workspace).report = .text content ∧
      (detect others (otherProgram :: name :: (files ++ more)) workspace).report =
        .text remaining ∧
      Report.namesIn remaining ⊆ Report.namesIn content := by
  rcases exists_completedRun completed with ⟨run, written⟩
  rcases exists_completedRun extended with ⟨larger, rewritten⟩
  refine ⟨_, _, written, rewritten, ?_⟩
  have included : run.units ⊆ larger.units :=
    (Cache.prefix_of_gather_append run.gather_eq larger.gather_eq).subset
  intro function reported
  rw [larger.mem_namesIn_iff] at reported
  rw [run.mem_namesIn_iff]
  exact reported.of_subset (larger.name_eq.trans run.name_eq.symm) included

/-- The second file calls one of the two functions that are dead for want of it. -/
theorem detect_reports_fewer_with_more_files_twoCallers :
    (detect (fun _ => 1) ["detect", "a.elf", "src/y.c"] twoCallers).report = .text "f\nh" ∧
    (detect (fun _ => 2) ["detect", "a.elf", "src/y.c", "src/x.c"] twoCallers).report =
      .text "h" ∧
    Report.namesIn "h" ⊆ Report.namesIn "f\nh" := by
  have alone : (detect (fun _ => 1) ["detect", "a.elf", "src/y.c"] twoCallers).fault = none ∧
      (detect (fun _ => 1) ["detect", "a.elf", "src/y.c"] twoCallers).report =
        .text "f\nh" := by decide +kernel
  rcases detect_twoCallers with ⟨extended, rewritten⟩
  change (detect _ ("detect" :: "a.elf" :: (["src/y.c"] ++ ["src/x.c"])) _).fault = none at extended
  rcases detect_reports_fewer_with_more_files alone.1 extended with
    ⟨content, remaining, first, second, fewer⟩
  cases first.symm.trans alone.2
  cases second.symm.trans rewritten
  exact ⟨alone.2, rewritten, fewer⟩

end Deadwood
