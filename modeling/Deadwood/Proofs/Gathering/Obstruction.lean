import Deadwood.Proofs.Gathering.Serving

namespace Deadwood
namespace Cache

/-!
# Where a gathering fails

A file is parsed and saved only if no unit is saved under its name yet and no earlier
file has the name.  Something may stand in the way of that: the source is missing, its
unit cannot be saved, the place of the cache or of the entry is taken, or the name is
too long.  Whether this is so can be told from the sources and from the cache at the
start, because the files before it leave its entry alone.

A gathering fails exactly if some file meets with an obstruction, and it fails at the
first such file.  An obstruction that comes later has no say in the fault, and nothing
that the gathering did before is undone.
-/

variable {sources : Sources} {cache next left : Cache} {file : String}
  {files back : List String} {unit : CompilationUnit} {units : List CompilationUnit}
  {fault : GatherFault} {result : Except GatherFault CompilationUnit} {position : Nat}

/-- Something prevents a file from being parsed and saved. -/
inductive Obstructed (sources : Sources) (cache : Cache) (file : String) : Prop where
  | sourceless (unknown : sources[file]? = none)
  | unsavable {unit : CompilationUnit} (parsed : sources[file]? = some unit)
      (refused : unit.savable = false)
  /-- There is no directory for the entries and none can be made. -/
  | misplaced (plain : cache = .plainFile)
  | occupied (held : cache.lookup? (entryName file) = some .directory)
  | overlong (long : longestName < (entryName file).utf8ByteSize)

/-- The file in this position, counted from zero, has to be parsed and saved, and
something prevents it. -/
structure Blocked (sources : Sources) (files : List String) (cache : Cache) (position : Nat)
    (file : String) : Prop where
  listed : files[position]? = some file
  missed : ∀ unit, cache.lookup? (entryName file) ≠ some (.saved unit)
  first : firstNamesake? (files.take position) file = none
  obstructed : Obstructed sources cache file

/-! ## One file -/

theorem not_obstructed_of_save? (parsed : sources[file]? = some unit)
    (success : cache.save? (entryName file) unit = some next) :
    ¬ Obstructed sources cache file := by
  rcases save?_isSome_iff.mp (Option.isSome_of_eq_some success) with
    ⟨⟨entries, rfl⟩, savable, short, free⟩
  intro obstructed
  cases obstructed with
  | sourceless unknown =>
      rw [parsed] at unknown
      cases unknown
  | unsavable again refused =>
      rw [parsed] at again
      cases again
      rw [savable] at refused
      cases refused
  | misplaced plain => cases plain
  | occupied held => exact free held
  | overlong long => exact absurd short (Nat.not_le_of_lt long)

theorem obstructed_of_save?_eq_none (prepared : cache.prepare = cache)
    (parsed : sources[file]? = some unit) (refused : cache.save? (entryName file) unit = none) :
    Obstructed sources cache file := by
  cases cache with
  | absent => cases prepared
  | plainFile => exact .misplaced rfl
  | directory entries =>
      by_contra clear
      have saved := save?_isSome_iff.mpr ⟨⟨entries, rfl⟩,
        Bool.of_not_eq_false fun unsavable => clear (.unsavable parsed unsavable),
        Nat.le_of_not_lt fun long => clear (.overlong long), fun held => clear (.occupied held)⟩
      rw [refused] at saved
      cases saved

/-- A missing source is noticed before anything else. -/
theorem Fetches.fault_eq (failed : Fetches sources cache file (.error fault) next) :
    fault = if sources[file]? = none then .unparsable else .unsavable := by
  cases failed with
  | unparsable _ unknown => rw [if_pos unknown]
  | unsavable _ parsed _ => rw [if_neg (by rw [parsed]; exact nofun)]

theorem Fetches.obstructed (failed : Fetches sources cache file (.error fault) next)
    (prepared : cache.prepare = cache) : Obstructed sources cache file := by
  cases failed with
  | unparsable _ unknown => exact .sourceless unknown
  | unsavable _ parsed refused => exact obstructed_of_save?_eq_none prepared parsed refused

theorem Fetches.not_obstructed (fetched : Fetches sources cache file (.ok unit) next)
    (missed : ∀ unit, cache.lookup? (entryName file) ≠ some (.saved unit)) :
    ¬ Obstructed sources cache file := by
  cases fetched with
  | loaded held => exact absurd held (missed unit)
  | renewed _ parsed success => exact not_obstructed_of_save? parsed success

/-- A file that is not saved yet is obtained unless something prevents it. -/
theorem Fetches.exists_unit_iff (fetches : Fetches sources cache file result next)
    (prepared : cache.prepare = cache)
    (missed : ∀ unit, cache.lookup? (entryName file) ≠ some (.saved unit)) :
    (∃ unit, result = .ok unit) ↔ ¬ Obstructed sources cache file := by
  cases result with
  | ok unit => exact iff_of_true ⟨unit, rfl⟩ (fetches.not_obstructed missed)
  | error fault => exact iff_of_false nofun (not_not_intro (fetches.obstructed prepared))

theorem Obstructed.transfer (obstructed : Obstructed sources cache file)
    (plain : cache = .plainFile → next = .plainFile)
    (same : next.lookup? (entryName file) = cache.lookup? (entryName file)) :
    Obstructed sources next file := by
  cases obstructed with
  | sourceless unknown => exact .sourceless unknown
  | unsavable parsed refused => exact .unsavable parsed refused
  | misplaced found => exact .misplaced (plain found)
  | occupied held => exact .occupied (same.trans held)
  | overlong long => exact .overlong long

/-! ## The files before it -/

theorem Obtains.plainFile_iff (obtains : Obtains sources cache.prepare files units left) :
    left = .plainFile ↔ cache = .plainFile := by
  cases cache with
  | plainFile => exact iff_of_true (obtains.eq_of_no_directory nofun) rfl
  | absent =>
      rcases obtains.keeps_directory ⟨∅, rfl⟩ with ⟨entries, rfl⟩
      exact iff_of_false nofun nofun
  | directory entries =>
      rcases obtains.keeps_directory ⟨entries, rfl⟩ with ⟨entries, rfl⟩
      exact iff_of_false nofun nofun

/-- For the first file of a name, things are as they were at the start. -/
theorem Obtains.unchanged_for_first (obtains : Obtains sources cache.prepare files units left)
    (first : firstNamesake? files file = none) :
    left.lookup? (entryName file) = cache.lookup? (entryName file) ∧
      (Obstructed sources left file ↔ Obstructed sources cache file) := by
  have same : left.lookup? (entryName file) = cache.lookup? (entryName file) := by
    rw [← lookup?_prepare cache]
    exact lookup?_congr (obtains.entries_of_unlisted (firstNamesake?_eq_none_iff.mp first))
  refine ⟨same, ?_, ?_⟩
  · intro obstructed
    exact obstructed.transfer obtains.plainFile_iff.mp same.symm
  · intro obstructed
    exact obstructed.transfer obtains.plainFile_iff.mpr same

/-- Files that can be obtained are not blocked. -/
theorem Obtains.not_blocked (obtains : Obtains sources cache.prepare files units left)
    (position : Nat) (file : String) : ¬ Blocked sources files cache position file := by
  intro blocked
  have split : files = files.take position ++ file :: files.drop (position + 1) := by
    have whole := List.take_append_drop position files
    rw [List.drop_eq_getElem?_toList_append, blocked.listed] at whole
    exact whole.symm
  rw [split] at obtains
  rcases obtains.exists_of_append with ⟨earlier, later, next, _, before, after⟩
  rcases before.unchanged_for_first blocked.first with ⟨same, obstructed⟩
  have missed := blocked.missed
  rw [← same] at missed
  cases after with
  | cons fetched _ => exact fetched.not_obstructed missed (obstructed.mpr blocked.obstructed)

/-- The file at which a gathering fails is blocked. -/
theorem Obtains.blocked_of_failed (obtains : Obtains sources cache.prepare files units left)
    (failed : Fetches sources left file (.error fault) left) (back : List String) :
    Blocked sources (files ++ file :: back) cache files.length file := by
  have missed := failed.missed_of_error.2
  have first : firstNamesake? files file = none := by
    apply firstNamesake?_eq_none_iff.mpr
    intro other listed named
    rcases obtains.exists_saved listed with ⟨unit, held⟩
    rw [named] at held
    exact missed unit held
  rcases obtains.unchanged_for_first first with ⟨same, obstructed⟩
  rw [same] at missed
  refine ⟨?_, missed, ?_, ?_⟩
  · rw [List.getElem?_append_right (Nat.le_refl _), Nat.sub_self]
    rfl
  · rw [List.take_left]
    exact first
  · exact obstructed.mp (failed.obstructed (obtains.prepare_eq (prepare_prepare cache)))

/-- Whether a file is blocked does not depend on the files after it. -/
theorem Blocked.of_append (blocked : Blocked sources (files ++ back) cache position file)
    (within : position < files.length) : Blocked sources files cache position file where
  listed := (List.getElem?_append_left within).symm.trans blocked.listed
  missed := blocked.missed
  first := by
    rw [← List.take_append_of_le_length (Nat.le_of_lt within)]
    exact blocked.first
  obstructed := blocked.obstructed

end Cache

/-- A gathering fails exactly if some file is blocked.  The first one decides the fault,
which is that of parsing if the file has no source, and that of saving otherwise.  The
files before it can be gathered, and the cache is the one that they leave. -/
theorem gather_fails_at_first_blocked (sources : Sources) (files : List String) (cache : Cache) :
    ((∃ fault, (gather sources files cache).units = .error fault) ↔
      ∃ position file, Cache.Blocked sources files cache position file) ∧
    ∀ (position : Nat) (file : String), Cache.Blocked sources files cache position file →
      (∀ earlier < position, ∀ other, ¬ Cache.Blocked sources files cache earlier other) →
      (gather sources files cache).units =
        .error (if sources[file]? = none then .unparsable else .unsavable) ∧
      (∃ units, (gather sources (files.take position) cache).units = .ok units) ∧
      (gather sources files cache).cache =
        (gather sources (files.take position) cache).cache := by
  rcases Cache.gather_cases sources files cache with
    ⟨units, returned, obtains⟩ | ⟨front, failing, back, units, fault, split, failed, obtains, last⟩
  · refine ⟨⟨?_, ?_⟩, ?_⟩
    · rintro ⟨fault, failed⟩
      rw [returned] at failed
      cases failed
    · rintro ⟨position, file, blocked⟩
      exact absurd blocked (obtains.not_blocked position file)
    · intro position file blocked
      exact absurd blocked (obtains.not_blocked position file)
  · have actual := obtains.blocked_of_failed last back
    rw [← split] at actual
    refine ⟨⟨fun _ => ⟨_, _, actual⟩, fun _ => ⟨fault, failed⟩⟩, ?_⟩
    intro position file blocked earliest
    rcases Nat.lt_trichotomy position front.length with before | same | behind
    · rw [split] at blocked
      exact absurd (blocked.of_append before) (obtains.not_blocked position file)
    · subst same
      have here := actual.listed.symm.trans blocked.listed
      cases here
      have gathered := obtains.gather_eq
      have front_eq : files.take front.length = front := by rw [split, List.take_left]
      rw [front_eq, failed, last.fault_eq]
      exact ⟨rfl, ⟨units, gathered.1⟩, gathered.2.symm⟩
    · exact absurd actual (earliest front.length behind failing)

/-- Two sources, and a directory under the name of the second. -/
def takenName : Workspace where
  sources := ((∅ : Sources).insert "a/x.c" { id := some "x" }).insert "b/y.c" { id := some "y" }
  cache := .directory ((∅ : Std.ExtTreeMap String Entry).insert "y.c_cache" .directory)

/-- The second file has no source, but needs none after its namesake.  The third one
decides, although the fourth has no source either. -/
theorem gather_fails_at_first_blocked_takenName :
    Cache.Blocked takenName.sources ["a/x.c", "c/x.c", "b/y.c", "z.c"] takenName.cache 3
      "z.c" ∧
    (gather takenName.sources ["a/x.c", "c/x.c", "b/y.c", "z.c"] takenName.cache).units =
      .error .unsavable ∧
    (gather takenName.sources ["a/x.c", "c/x.c", "b/y.c", "z.c"] takenName.cache).cache =
      (gather takenName.sources ["a/x.c", "c/x.c"] takenName.cache).cache := by
  have taken : takenName.cache.lookup? (Cache.entryName "b/y.c") = some .directory := by
    decide +kernel
  have vacant : takenName.cache.lookup? (Cache.entryName "z.c") = none := by decide +kernel
  have blocked : Cache.Blocked takenName.sources ["a/x.c", "c/x.c", "b/y.c", "z.c"]
      takenName.cache 2 "b/y.c" :=
    ⟨rfl, by rw [taken]; exact nofun, by decide +kernel, .occupied taken⟩
  have repeated : Cache.firstNamesake? ["a/x.c"] "c/x.c" ≠ none := by decide +kernel
  have earliest : ∀ earlier < 2, ∀ other, ¬ Cache.Blocked takenName.sources
      ["a/x.c", "c/x.c", "b/y.c", "z.c"] takenName.cache earlier other := by
    intro earlier before other impossible
    rcases Nat.le_one_iff_eq_zero_or_eq_one.mp (Nat.le_of_lt_succ before) with rfl | rfl
    · have same : "a/x.c" = other := Option.some.inj impossible.listed
      subst same
      exact Cache.not_obstructed_of_save? rfl rfl impossible.obstructed
    · have same : "c/x.c" = other := Option.some.inj impossible.listed
      subst same
      exact repeated impossible.first
  rcases (gather_fails_at_first_blocked takenName.sources ["a/x.c", "c/x.c", "b/y.c", "z.c"]
    takenName.cache).2 2 "b/y.c" blocked earliest with ⟨failed, _, left⟩
  have supplied : takenName.sources["b/y.c"]? ≠ none := by decide +kernel
  rw [if_neg supplied] at failed
  exact ⟨⟨rfl, by rw [vacant]; exact nofun, by decide +kernel, .sourceless rfl⟩, failed, left⟩

end Deadwood
