import Deadwood.Proofs.Detection.Completion
import Deadwood.Proofs.Listing.Grammar
import Deadwood.Proofs.Survey.Union
import Deadwood.Proofs.SymbolTable.Rows

namespace Deadwood

/-!
# The functions that are reported

A completed run reports the functions of the binary that it did not find to be
used.  Here the report is described by what was read alone: by rows of the symbol
table, lines of the disassembly and nodes of the compilation units.  Neither the
scanners nor the pool of workers occur in this description, and nothing that the
workers do can change it.

Not every mention in the disassembly counts.  A line gives its leftmost bracketed
name only, so a function that is always preceded by another name on its line is
reported although it is mentioned.
-/

theorem NameSet.pairwise_toList (names : NameSet) : names.toList.Pairwise (· < ·) := by
  have ordered : names.toList.Pairwise fun a b => compare a b = .lt :=
    Std.ExtTreeSet.ordered_toList
  exact ordered.imp compareOfLessAndEq_eq_lt.mp

namespace CompletedRun

variable {limits : Pool.Limits} {arguments : List String} {workspace : Workspace}

/-- A line of the listing, not a header itself, mentions this name first. -/
def Mentions (run : CompletedRun limits arguments workspace) (name : String) : Prop :=
  ∃ line ∈ run.listing, (∀ function, ¬ Listing.Opens line function) ∧
    Listing.BracketsFirst line name

/-- The function is in the binary, and nothing that was read uses it. -/
structure Dead (run : CompletedRun limits arguments workspace) (name : String) : Prop where
  symbol : ∃ line, SymbolTable.Yields run.binary.symbolTable line ∧
    String.ofList (Text.trim line) = name
  opened : ∃ line ∈ run.listing, Listing.Opens line name
  unreferred : ¬ ∃ unit ∈ run.units, unit.Refers name
  unmentioned : ¬ run.Mentions name

theorem mem_functions_iff (run : CompletedRun limits arguments workspace) {name : String} :
    name ∈ run.functions ↔
      (∃ line, SymbolTable.Yields run.binary.symbolTable line ∧
        String.ofList (Text.trim line) = name) ∧
      ∃ line ∈ run.listing, Listing.Opens line name := by
  rw [functions, Listing.mem_functions, SymbolTable.mem_names run.table_eq]
  simp only [Listing.header?_eq_some_iff]

/-- References count only for functions of the binary, mentions for any name. -/
theorem mem_used_iff (run : CompletedRun limits arguments workspace) {name : String} :
    name ∈ run.used ↔
      (name ∈ run.functions ∧ ∃ unit ∈ run.units, unit.Refers name) ∨ run.Mentions name := by
  have referred := (used_of_survey_completed run.surveyed).2 name
  rw [used, Std.ExtTreeSet.mem_union_iff, Listing.mem_mentions]
  simp only [Listing.mention?_eq_some_iff]
  refine or_congr ?_ Iff.rfl
  refine referred.trans ?_
  simp only [Std.ExtTreeSet.not_mem_empty, false_or]
  rfl

theorem mem_functions_sdiff_used_iff (run : CompletedRun limits arguments workspace)
    {name : String} : name ∈ run.functions \ run.used ↔ run.Dead name := by
  rw [Std.ExtTreeSet.mem_diff_iff, mem_used_iff]
  constructor
  · rintro ⟨contained, unused⟩
    rcases run.mem_functions_iff.mp contained with ⟨symbol, opened⟩
    exact ⟨symbol, opened, fun referred => unused (.inl ⟨contained, referred⟩),
      fun mentioned => unused (.inr mentioned)⟩
  · rintro ⟨symbol, opened, unreferred, unmentioned⟩
    refine ⟨run.mem_functions_iff.mpr ⟨symbol, opened⟩, ?_⟩
    rintro (⟨_, referred⟩ | mentioned)
    · exact unreferred referred
    · exact unmentioned mentioned

/-- A name is not mentioned if each time that it stands in brackets, another name
stands in brackets before it on the line.  Margins play no part in this, so it can
be seen from the lines as they were printed. -/
theorem not_mentions_iff (run : CompletedRun limits arguments workspace) {name : String} :
    ¬ run.Mentions name ↔ ∀ line ∈ Text.lines run.disassembly,
      (∀ function, ¬ Listing.Opens (Text.trim line) function) →
      ∀ before, Listing.BracketsAfter line before name → ∃ earlier other,
        Listing.BracketsAfter line earlier other ∧ earlier.length < before.length ∧
          other ≠ name := by
  rw [Mentions, listing, Text.trimmedLines_eq_map_lines]
  simp only [List.mem_map, exists_exists_and_eq_and, Listing.bracketsFirst_trim_iff, not_exists,
    not_and, Listing.not_bracketsFirst_iff]

end CompletedRun

/-- A completed run reports exactly the dead functions, each once, in ascending
order and divided by line feeds. -/
theorem detect_reports_dead_functions {limits : Pool.Limits} {arguments : List String}
    {workspace : Workspace} (completed : (detect limits arguments workspace).fault = none) :
    ∃ (run : CompletedRun limits arguments workspace) (dead : List String),
      (detect limits arguments workspace).report = .text ("\n".intercalate dead) ∧
      dead.Pairwise (· < ·) ∧ ∀ name, name ∈ dead ↔ run.Dead name := by
  rcases exists_completedRun completed with ⟨run, written⟩
  refine ⟨run, (run.functions \ run.used).toList, written, NameSet.pairwise_toList _, ?_⟩
  intro name
  rw [Std.ExtTreeSet.mem_toList, run.mem_functions_sdiff_used_iff]

/-- A binary of two functions and a variable.  The name of the variable is not UTF-8,
so the symbol table is no text as a whole.  The source file mentions `foo`. -/
def foreignVariable : Workspace where
  sources := (∅ : Sources).insert "x.c"
    { nodes := [⟨.construct "FUNCTION_DECL", "main", some [some "main", some "foo"]⟩] }
  binaries := (∅ : Binaries).insert "a.elf"
    { symbolTable := "0 g O .data 0 caf".toUTF8 ++ ⟨#[0xE9]⟩ ++
        "\n0 g F .text 0 foo\n0 g F .text 0 bar\n".toUTF8
      disassembly := "00 <foo>:\n00 <bar>:\n".toUTF8 }

theorem detect_reports_dead_functions_foreignVariable :
    (∃ binary, foreignVariable.binaries.readable? "a.elf" = some binary ∧
      Text.decode? binary.symbolTable = none) ∧
    (detect (fun _ => 64) ["detect", "a.elf", "x.c"] foreignVariable).fault = none ∧
    ∃ (run : CompletedRun (fun _ => 64) ["detect", "a.elf", "x.c"] foreignVariable)
      (dead : List String),
      Report.text "bar" = .text ("\n".intercalate dead) ∧
      dead.Pairwise (· < ·) ∧ ∀ name, name ∈ dead ↔ run.Dead name := by
  have outcome :
      (detect (fun _ => 64) ["detect", "a.elf", "x.c"] foreignVariable).fault = none ∧
      (detect (fun _ => 64) ["detect", "a.elf", "x.c"] foreignVariable).report =
        .text "bar" := by
    decide +kernel
  rcases outcome with ⟨completed, written⟩
  refine ⟨⟨_, by rfl, by decide +kernel⟩, completed, ?_⟩
  exact written ▸ detect_reports_dead_functions completed

/-- Which functions are reported in spite of their mentions.  A function of the
binary to which no unit refers is spared if, on some line that is no header, it is
the first name in brackets; being one of the names there is not enough. -/
theorem detect_reports_mentioned_iff {limits : Pool.Limits} {arguments : List String}
    {workspace : Workspace} (completed : (detect limits arguments workspace).fault = none) :
    ∃ (run : CompletedRun limits arguments workspace) (dead : List String),
      (detect limits arguments workspace).report = .text ("\n".intercalate dead) ∧
      ∀ name, name ∈ dead ↔
        name ∈ run.functions ∧ (¬ ∃ unit ∈ run.units, unit.Refers name) ∧
        ∀ line ∈ Text.lines run.disassembly,
          (∀ function, ¬ Listing.Opens (Text.trim line) function) →
          ∀ before, Listing.BracketsAfter line before name → ∃ earlier other,
            Listing.BracketsAfter line earlier other ∧ earlier.length < before.length ∧
              other ≠ name := by
  rcases exists_completedRun completed with ⟨run, written⟩
  refine ⟨run, (run.functions \ run.used).toList, written, ?_⟩
  intro name
  rw [Std.ExtTreeSet.mem_toList, run.mem_functions_sdiff_used_iff, ← run.not_mentions_iff,
    run.mem_functions_iff]
  constructor
  · rintro ⟨symbol, opened, unreferred, unmentioned⟩
    exact ⟨⟨symbol, opened⟩, unreferred, unmentioned⟩
  · rintro ⟨⟨symbol, opened⟩, unreferred, unmentioned⟩
    exact ⟨symbol, opened, unreferred, unmentioned⟩

/-- A binary of three functions.  The source file calls `baz`, and one line of the
disassembly has both `foo` and `bar`. -/
def crowdedLine : Workspace where
  sources := (∅ : Sources).insert "x.c"
    { nodes := [⟨.construct "FUNCTION_DECL", "main", some [some "main", some " baz"]⟩] }
  binaries := (∅ : Binaries).insert "a.elf"
    { symbolTable := "0 g F .text 0 foo\n0 g F .text 0 bar\n0 g F  .text 0 baz\n".toUTF8
      disassembly := "00 <foo>:\n 1: call <foo> <bar>\n00 <bar>:\n00 <baz>:\n".toUTF8 }

theorem detect_crowdedLine :
    (detect (fun _ => 64) ["detect", "a.elf", "x.c"] crowdedLine).fault = none ∧
    (detect (fun _ => 64) ["detect", "a.elf", "x.c"] crowdedLine).report = .text "bar" := by
  decide +kernel

theorem detect_reports_mentioned_iff_crowdedLine :
    (detect (fun _ => 64) ["detect", "a.elf", "x.c"] crowdedLine).fault = none ∧
    ∃ (run : CompletedRun (fun _ => 64) ["detect", "a.elf", "x.c"] crowdedLine)
      (dead : List String),
      Report.text "bar" = .text ("\n".intercalate dead) ∧
      ∀ name, name ∈ dead ↔
        name ∈ run.functions ∧ (¬ ∃ unit ∈ run.units, unit.Refers name) ∧
        ∀ line ∈ Text.lines run.disassembly,
          (∀ function, ¬ Listing.Opens (Text.trim line) function) →
          ∀ before, Listing.BracketsAfter line before name → ∃ earlier other,
            Listing.BracketsAfter line earlier other ∧ earlier.length < before.length ∧
              other ≠ name := by
  rcases detect_crowdedLine with ⟨completed, written⟩
  exact ⟨completed, written ▸ detect_reports_mentioned_iff completed⟩

/-- The second name on a line is not taken: `bar` is reported, and a line that is no
header has it in brackets. -/
theorem detect_reports_second_mention :
    (detect (fun _ => 64) ["detect", "a.elf", "x.c"] crowdedLine).fault = none ∧
    (detect (fun _ => 64) ["detect", "a.elf", "x.c"] crowdedLine).report = .text "bar" ∧
    ∃ binary disassembly, crowdedLine.binaries.readable? "a.elf" = some binary ∧
      Text.decode? binary.disassembly = some disassembly ∧
      ∃ line ∈ Text.lines disassembly,
        (∀ function, ¬ Listing.Opens (Text.trim line) function) ∧
        ∃ before, Listing.BracketsAfter line before "bar" := by
  rcases detect_crowdedLine with ⟨completed, written⟩
  refine ⟨completed, written, _, _, by rfl, by rfl, " 1: call <foo> <bar>".toList, ?_, ?_, ?_⟩
  · decide +kernel
  · exact Listing.header?_eq_none_iff.mp (by decide +kernel)
  · exact ⟨" 1: call <foo> ".toList, by decide +kernel, [], by decide +kernel⟩

end Deadwood
