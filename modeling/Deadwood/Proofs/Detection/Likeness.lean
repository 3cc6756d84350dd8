import Deadwood.Proofs.Text.LineEnds
import Deadwood.Session

namespace Deadwood

/-!
# Binaries that a run cannot tell apart

A run reads the disassembly of a binary twice, and both times it only looks for certain lines.
The first time it collects the functions that are opened, the second time the names that are
mentioned.  So two binaries with the same symbol table, whose listings agree in these two
respects, give the same run from beginning to end: with the same fault if there is one, the same
cache, report and log.

One way to obtain such a pair is to change line ends.  The listing may lose or gain empty
lines by this, but empty lines open and mention nothing.  Nor does it make a difference between
a disassembly that can be read and one that cannot.
-/

/-! ## Listings -/

namespace Listing

/-- Two listings that are alike in all that a run reads off them. -/
structure Alike (listing other : Listing) : Prop where
  functions : ∀ symbols, listing.functions symbols = other.functions symbols
  mentions : listing.mentions = other.mentions

/-- A reader that ignores empty lines sees the runs between line ends only. -/
theorem filterMap_trimmedLines {read : List Char → Option String} (ignores : read [] = none)
    (text : List Char) : (Text.trimmedLines text).filterMap read =
      (Text.runs Text.isLineEnd text).filterMap fun line => read (Text.trim line) := by
  rw [Text.trimmedLines_eq_map_lines, ← Text.filter_lines, List.filterMap_map,
    List.filterMap_filter]
  congr 1
  funext line
  by_cases empty : line = []
  · simp [empty, Text.trim_nil, ignores]
  · simp [empty]

/-- Texts with the same lines, apart from empty ones, make listings that are alike. -/
theorem alike_of_runs_eq {text other : List Char}
    (same : Text.runs Text.isLineEnd text = Text.runs Text.isLineEnd other) :
    Alike (Text.trimmedLines text) (Text.trimmedLines other) := by
  constructor
  · intro symbols
    simp only [functions, filterMap_trimmedLines (show header? [] = none from rfl), same]
  · simp only [mentions, filterMap_trimmedLines (show mention? [] = none from rfl), same]

end Listing

/-! ## Binaries -/

/-- Two binaries that differ in their disassembly at most, and there in nothing that a run
reads off it. -/
structure Binary.Alike (binary other : Binary) : Prop where
  symbolTable : binary.symbolTable = other.symbolTable
  status : binary.status = other.status
  listing : Option.Rel Listing.Alike binary.listing? other.listing?

/-- Collections whose binaries of one name are alike. -/
def Binaries.Alike (binaries others : Binaries) : Prop :=
  ∀ name : String, Option.Rel Binary.Alike binaries[name]? others[name]?

theorem Binary.Alike.refl (binary : Binary) : binary.Alike binary := by
  refine ⟨rfl, rfl, ?_⟩
  cases binary.listing? with
  | none => exact .none
  | some listing => exact .some ⟨fun _ => rfl, rfl⟩

theorem Binary.Alike.listing_cases {binary other : Binary} (alike : binary.Alike other) :
    (binary.listing? = none ∧ other.listing? = none) ∨
    ∃ listing otherListing, binary.listing? = some listing ∧
      other.listing? = some otherListing ∧ listing.Alike otherListing := by
  have related := alike.listing
  generalize binary.listing? = found at related ⊢
  generalize other.listing? = otherFound at related ⊢
  cases related with
  | none => exact .inl ⟨rfl, rfl⟩
  | some same => exact .inr ⟨_, _, rfl, rfl, same⟩

/-- Two targets with the same functions in binaries that are alike. -/
structure Target.Alike (target other : Target) : Prop where
  functions : target.functions = other.functions
  binary : target.binary.Alike other.binary

section

variable {binaries others : Binaries}

/-- One binary may be exchanged for another one that is alike. -/
theorem Binaries.alike_assign (binaries : Binaries) (name : String) {binary other : Binary}
    (alike : binary.Alike other) :
    Binaries.Alike (assign binaries name (some binary)) (assign binaries name (some other)) := by
  intro key
  rw [assign, assign, Std.ExtTreeMap.getElem?_insert, Std.ExtTreeMap.getElem?_insert]
  split
  · exact .some alike
  · cases binaries[key]? with
    | none => exact .none
    | some unchanged => exact .some (Binary.Alike.refl unchanged)

theorem Binaries.Alike.readable? (alike : binaries.Alike others) (name : String) :
    Option.Rel Binary.Alike (binaries.readable? name) (others.readable? name) := by
  have related := alike name
  unfold Binaries.readable?
  generalize binaries[name]? = found at related ⊢
  generalize others[name]? = otherFound at related ⊢
  cases related with
  | none => exact .none
  | some same =>
      rw [Option.filter_some, Option.filter_some, same.status]
      split
      · exact .some same
      · exact .none

/-- Alike binaries are inspected with the same outcome, apart from the binary that is kept for
the second reading. -/
theorem inspect_of_alike (alike : binaries.Alike others) (name : String) :
    (inspect binaries name).log = (inspect others name).log ∧
    ((∃ fault, (inspect binaries name).target = .error fault ∧
        (inspect others name).target = .error fault) ∨
      ∃ target other, (inspect binaries name).target = .ok target ∧
        (inspect others name).target = .ok other ∧ target.Alike other) := by
  have related := alike.readable? name
  unfold inspect
  generalize binaries.readable? name = found at related ⊢
  generalize others.readable? name = otherFound at related ⊢
  cases related with
  | none => exact ⟨rfl, .inl ⟨_, rfl, rfl⟩⟩
  | @some binary other same =>
      have symbols : binary.symbols? = other.symbols? := by
        rw [Binary.symbols?, same.symbolTable, Binary.symbols?]
      cases named : other.symbols? with
      | none =>
          simp only [symbols, named]
          exact ⟨trivial, .inl ⟨_, rfl, rfl⟩⟩
      | some names =>
          rcases same.listing_cases with ⟨first, second⟩ | ⟨_, _, first, second, listings⟩
          · simp only [symbols, named, first, second]
            exact ⟨trivial, .inl ⟨_, rfl, rfl⟩⟩
          · simp only [symbols, named, first, second]
            exact ⟨trivial, .inr ⟨_, _, rfl, rfl, listings.functions names, same⟩⟩

theorem conclude_of_alike {target other : Target} (alike : target.Alike other) (name : String)
    (used : NameSet) (report : Report) :
    conclude name target used report = conclude name other used report := by
  unfold conclude
  rcases alike.binary.listing_cases with ⟨first, second⟩ | ⟨_, _, first, second, listings⟩
  · simp only [first, second]
  · simp only [first, second, alike.functions, listings.mentions]

theorem detectIn_of_alike (alike : binaries.Alike others) (limits : Pool.Limits) (name : String)
    (files : List String) (workspace : Workspace) :
    detectIn limits name files { workspace with binaries } =
      detectIn limits name files { workspace with binaries := others } := by
  rcases inspect_of_alike alike name with ⟨log, ⟨fault, first, second⟩ | ⟨_, _, first, second,
    same⟩⟩
  · simp only [detectIn, first, second, log]
  · simp only [detectIn, first, second, log, same.functions, conclude_of_alike same]

/-- Alike binaries give the same run. -/
theorem detect_of_alike (alike : binaries.Alike others) (limits : Pool.Limits)
    (arguments : List String) (workspace : Workspace) :
    detect limits arguments { workspace with binaries } =
      detect limits arguments { workspace with binaries := others } := by
  match arguments with
  | [] => rfl
  | [program] => rfl
  | [program, name] => rfl
  | program :: name :: file :: files =>
      exact detectIn_of_alike alike limits name (file :: files) workspace

end

/-! ## Line ends -/

/-- The same binary, with other line ends in its disassembly. -/
def Binary.changeEnds (ends : Nat → Text.LineEnd) (binary : Binary) : Binary :=
  { binary with
    disassembly := (Text.changeEnds ends binary.disassembly.data.toList).toByteArray }

/-- Disassemblies with the same lines, apart from empty ones, have listings that are alike, or
neither of them has a listing. -/
theorem Binary.listing?_rel {binary other : Binary}
    (same : Text.solidLines? binary.disassembly.data.toList =
      Text.solidLines? other.disassembly.data.toList) :
    Option.Rel Listing.Alike binary.listing? other.listing? := by
  rw [Text.solidLines?_toList, Text.solidLines?_toList] at same
  unfold Binary.listing?
  cases first : Text.decode? binary.disassembly with
  | none =>
      rw [first, Option.map_none, eq_comm, Option.map_eq_none_iff] at same
      rw [same]
      exact .none
  | some text =>
      rw [first, Option.map_some, eq_comm, Option.map_eq_some_iff] at same
      rcases same with ⟨otherText, second, lines⟩
      rw [second]
      exact .some (Listing.alike_of_runs_eq lines.symm)

theorem Binary.changeEnds_alike (ends : Nat → Text.LineEnd) (binary : Binary) :
    (binary.changeEnds ends).Alike binary := by
  refine ⟨rfl, rfl, Binary.listing?_rel ?_⟩
  rw [Binary.changeEnds, List.toList_data_toByteArray]
  exact Text.solidLines?_append_changeEnds ends [] binary.disassembly.data.toList

/-- The line ends of a disassembly have no influence on anything that a run does.  Each of its
line feeds may be replaced by any line end, whatever the others are replaced by, and whether or
not there have been carriage returns in it before. -/
theorem detect_independent_of_line_ends (limits : Pool.Limits) (arguments : List String)
    (workspace : Workspace) (name : String) (binary : Binary) (ends : Nat → Text.LineEnd) :
    detect limits arguments (workspace.edit (.binary name (some (binary.changeEnds ends)))) =
      detect limits arguments (workspace.edit (.binary name (some binary))) := by
  apply detect_of_alike
  exact Binaries.alike_assign workspace.binaries name (binary.changeEnds_alike ends)

/-- A listing with an empty line in it. -/
def spacedListing : Binary where
  symbolTable := "0 g F .text 0 f\n0 g F .text 0 g\n".toUTF8
  disassembly := "00 <f>:\n\n1: call <g>\n00 <g>:\n".toUTF8

/-- With these line ends the empty line disappears from `spacedListing`. -/
def fusingEnds : Nat → Text.LineEnd
  | 0 => .carriageReturn
  | 1 => .feed
  | 2 => .both
  | _ => .carriageReturn

theorem detect_independent_of_line_ends_spacedListing :
    (spacedListing.changeEnds fusingEnds).disassembly =
      "00 <f>:\r\n1: call <g>\r\n00 <g>:\r".toUTF8 ∧
    (detect (fun _ => 1) ["detect", "a.elf", "x.c"]
      (Workspace.edit { sources := (∅ : Sources).insert "x.c" {} }
        (.binary "a.elf" (some (spacedListing.changeEnds fusingEnds))))).report = .text "f" := by
  refine ⟨by decide +kernel, ?_⟩
  rw [detect_independent_of_line_ends]
  decide +kernel

end Deadwood
