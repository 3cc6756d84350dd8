import Mathlib.Data.List.Find
import Mathlib.Data.List.Nodup
import Mathlib.Data.List.Perm.Basic
import Deadwood.Proofs.Gathering.Course
import Deadwood.Workspace

namespace Deadwood
namespace Cache

/-!
# What a gathering serves

A gathering writes the cache from which it reads, so what a file is served seems to
depend on everything that was done for the files before it.  It can nevertheless be
told at the start.  A unit that is saved under the name of a file is served to all
files of that name.  If there is none, then the first of these files is parsed for
all of them.

This rule is the same before and after every fetch.  A fetch only moves a unit from
the files that are still to come into the cache, and nothing is served differently
for it.  When no file is left to come, the rule speaks of the cache alone, and so the
cache at the end is known as well.  The order of the files enters the rule only where
two of them share a name.
-/

variable {sources : Sources} {cache next left : Cache} {file other name : String}
  {files : List String} {unit : CompilationUnit} {units : List CompilationUnit}
  {result : Except GatherFault CompilationUnit}

/-! ## The entries of a cache -/

/-- What the directory holds.  Nothing else has entries. -/
def entries : Cache → Std.ExtTreeMap String Entry
  | .directory entries => entries
  | _ => ∅

theorem entries_prepare (cache : Cache) : cache.prepare.entries = cache.entries := by
  cases cache <;> rfl

theorem lookup?_eq_entries (cache : Cache) (name : String) :
    cache.lookup? name =
      if name.utf8ByteSize ≤ longestName then cache.entries[name]? else none := by
  cases cache <;> simp [lookup?, entries]

theorem lookup?_congr (same : next.entries[name]? = cache.entries[name]?) :
    next.lookup? name = cache.lookup? name := by
  rw [lookup?_eq_entries, lookup?_eq_entries, same]

/-- Whatever can be found is an entry of a directory. -/
theorem exists_entry_of_lookup? {entry : Entry} (found : cache.lookup? name = some entry) :
    ∃ entries, cache = .directory entries ∧ entries[name]? = some entry := by
  cases cache with
  | absent => cases found
  | plainFile => cases found
  | directory entries =>
      rw [lookup?] at found
      split at found
      · exact ⟨entries, rfl, found⟩
      · cases found

/-- Saving changes one entry of a directory. -/
theorem entries_of_save? (success : cache.save? name unit = some next) (different : other ≠ name) :
    next.entries[other]? = cache.entries[other]? := by
  cases cache with
  | absent => cases success
  | plainFile => cases success
  | directory entries =>
      rw [save?] at success
      split at success
      · cases success
        exact (Std.ExtTreeMap.getElem?_insert ..).trans (if_neg (by simpa using different.symm))
      · cases success

theorem Fetches.entries_of_ne (fetches : Fetches sources cache file result next)
    (different : name ≠ entryName file) : next.entries[name]? = cache.entries[name]? := by
  cases fetches with
  | loaded _ => rfl
  | renewed _ _ success => exact entries_of_save? success different
  | unparsable _ _ => rfl
  | unsavable _ _ _ => rfl

/-- Entries of other names than those of the files are left alone. -/
theorem Obtains.entries_of_unlisted (obtains : Obtains sources cache files units left)
    (unlisted : ∀ file ∈ files, entryName file ≠ name) :
    left.entries[name]? = cache.entries[name]? := by
  induction obtains with
  | nil => rfl
  | cons fetched _ ih =>
      have later := ih fun file listed => unlisted file (List.mem_cons_of_mem _ listed)
      exact later.trans (fetched.entries_of_ne (unlisted _ List.mem_cons_self).symm)

theorem Obtains.keeps_directory (obtains : Obtains sources cache files units left)
    (start : ∃ entries, cache = .directory entries) : ∃ entries, left = .directory entries := by
  induction obtains with
  | nil => exact start
  | cons fetched _ ih =>
      apply ih
      cases fetched with
      | loaded _ => exact start
      | renewed _ _ success => exact directory_of_save? success

/-- Without a directory nothing is saved. -/
theorem Obtains.eq_of_no_directory (obtains : Obtains sources cache files units left)
    (missing : ¬ ∃ entries, cache = .directory entries) : left = cache := by
  induction obtains with
  | nil => rfl
  | cons fetched _ ih =>
      cases fetched with
      | loaded _ => exact ih missing
      | renewed _ _ success =>
          exact absurd (save?_isSome_iff.mp (Option.isSome_of_eq_some success)).1 missing

/-! ## Namesakes -/

/-- The first of some files that has the name of this one. -/
def firstNamesake? (files : List String) (file : String) : Option String :=
  files.find? fun other => basename other = basename file

/-- The unit of the first namesake of a file among the files obtained. -/
def inherited? (sources : Sources) (history : List String) (file : String) :
    Option CompilationUnit :=
  (firstNamesake? history file).bind fun first => sources[first]?

theorem basename_of_firstNamesake? {first : String}
    (found : firstNamesake? files file = some first) : basename first = basename file := by
  have same := List.find?_some found
  exact of_decide_eq_true same

theorem firstNamesake?_isSome_iff :
    (firstNamesake? files file).isSome = true ↔ basename file ∈ files.map basename := by
  simp only [firstNamesake?, List.find?_isSome, decide_eq_true_eq, List.mem_map]

theorem firstNamesake?_eq_none_iff :
    firstNamesake? files file = none ↔ ∀ other ∈ files, entryName other ≠ entryName file := by
  simp only [firstNamesake?, List.find?_eq_none, decide_eq_true_eq, ne_eq, entryName_inj]

/-- A later namesake does not count. -/
theorem firstNamesake?_append_of_some {first : String}
    (found : firstNamesake? files file = some first) (later : List String) :
    firstNamesake? (files ++ later) file = some first := by
  rw [firstNamesake?] at found ⊢
  rw [List.find?_append, found]
  rfl

theorem inherited?_cons (sources : Sources) (file : String) (files : List String)
    (other : String) :
    inherited? sources (file :: files) other =
      if basename file = basename other then sources[file]?
      else inherited? sources files other := by
  rw [inherited?, firstNamesake?, List.find?_cons]
  by_cases alike : basename file = basename other
  · simp [alike]
  · simp [alike, inherited?, firstNamesake?]

/-! ## The rule -/

/-- What a gathering of these files serves to a file: the unit that is saved under its
name, or else the source of the first file of that name. -/
def served? (sources : Sources) (files : List String) (cache : Cache) (file : String) :
    Option CompilationUnit :=
  match cache.lookup? (entryName file) with
  | some (.saved unit) => some unit
  | _ => inherited? sources files file

theorem served?_of_saved (held : cache.lookup? (entryName file) = some (.saved unit)) :
    served? sources files cache file = some unit := by
  rw [served?, held]

theorem served?_of_missed
    (missed : ∀ unit, cache.lookup? (entryName file) ≠ some (.saved unit)) :
    served? sources files cache file = inherited? sources files file := by
  unfold served?
  split
  · rename_i unit held
    exact absurd held (missed unit)
  · rfl

theorem served?_prepare (sources : Sources) (files : List String) (cache : Cache) :
    served? sources files cache.prepare = served? sources files cache := by
  funext file
  rw [served?, served?, lookup?_prepare]

/-- Fetching a file does not change what is served to any file. -/
theorem Fetches.served?_eq (fetched : Fetches sources cache file (.ok unit) next)
    (files : List String) :
    served? sources files next = served? sources (file :: files) cache := by
  funext other
  by_cases alike : basename file = basename other
  · have named : entryName other = entryName file := entryName_inj.mpr alike.symm
    have held := fetched.holds
    rw [← named] at held
    rw [served?_of_saved held]
    cases fetched with
    | loaded before =>
        rw [← named] at before
        exact (served?_of_saved before).symm
    | renewed missed parsed _ =>
        rw [← named] at missed
        rw [served?_of_missed missed, inherited?_cons, if_pos alike, parsed]
  · have different : entryName other ≠ entryName file :=
      fun same => alike (entryName_inj.mp same).symm
    rw [served?, served?, lookup?_congr (fetched.entries_of_ne different), inherited?_cons,
      if_neg alike]

/-- What is served to all files yet to come is known from the start, whatever part of
them has been obtained. -/
theorem Obtains.served?_eq (obtains : Obtains sources cache files units left)
    (more : List String) :
    served? sources more left = served? sources (files ++ more) cache := by
  induction obtains with
  | nil => rfl
  | cons fetched _ ih => exact ih.trans (fetched.served?_eq _)

/-- Every file is served by the rule. -/
theorem Obtains.units_eq (obtains : Obtains sources cache files units left) :
    units.map some = files.map (served? sources files cache) := by
  induction obtains with
  | nil => rfl
  | @cons cache next left file files unit units fetched _ ih =>
      have first : served? sources (file :: files) cache file = some unit := by
        rw [← fetched.served?_eq]
        exact served?_of_saved fetched.holds
      rw [List.map_cons, List.map_cons, first, ih, fetched.served?_eq]

/-- When no file is left to come, what is served is what the cache holds. -/
theorem Obtains.served?_of_lookup? (obtains : Obtains sources cache files units left)
    (held : left.lookup? (entryName file) = some (.saved unit)) :
    served? sources files cache file = some unit := by
  have rule := congrFun (obtains.served?_eq []) file
  rw [List.append_nil, served?_of_saved held] at rule
  exact rule.symm

/-- At the end a unit is saved under the name of every file, the one it was served. -/
theorem Obtains.lookup?_of_served? (obtains : Obtains sources cache files units left)
    (listed : file ∈ files) (served : served? sources files cache file = some unit) :
    left.lookup? (entryName file) = some (.saved unit) := by
  rcases obtains.exists_saved listed with ⟨saved, held⟩
  have same := served.symm.trans (obtains.served?_of_lookup? held)
  cases same
  exact held

/-- The first file of a name comes no later than the others. -/
theorem served?_take (sources : Sources) (cache : Cache) {position : Nat}
    (listed : files[position]? = some file) :
    served? sources (files.take (position + 1)) cache file = served? sources files cache file := by
  have inside : file ∈ files.take (position + 1) := by
    rw [List.take_add_one, listed]
    exact List.mem_append_right _ (List.mem_singleton_self file)
  have present : (firstNamesake? (files.take (position + 1)) file).isSome = true :=
    firstNamesake?_isSome_iff.mpr (List.mem_map_of_mem inside)
  rcases Option.isSome_iff_exists.mp present with ⟨first, found⟩
  have whole : firstNamesake? files file = some first := by
    have extended := firstNamesake?_append_of_some found (files.drop (position + 1))
    rw [List.take_append_drop] at extended
    exact extended
  rw [served?, served?, inherited?, inherited?, found, whole]

/-! ## The order of the files -/

/-- If no two files share a name, then their order does not matter for the rule. -/
theorem served?_perm {reordered : List String} (sources : Sources) (cache : Cache)
    (same : reordered.Perm files) (distinct : (files.map basename).Nodup) :
    served? sources reordered cache = served? sources files cache := by
  funext file
  have first : firstNamesake? reordered file = firstNamesake? files file := by
    symm
    apply List.find?_eq_find?_of_perm same.symm
    rintro one ⟨oneListed, oneNamed⟩ two ⟨twoListed, twoNamed⟩
    apply List.inj_on_of_nodup_map distinct oneListed twoListed
    exact (of_decide_eq_true oneNamed).trans (of_decide_eq_true twoNamed).symm
  rw [served?, served?, inherited?, inherited?, first]

/-- Two gatherings of the same files end with the same cache if they follow the same
rule. -/
theorem Obtains.left_eq {others : List String} {right : Cache}
    {otherUnits : List CompilationUnit} (first : Obtains sources cache files units left)
    (second : Obtains sources cache others otherUnits right)
    (members : ∀ file, file ∈ others ↔ file ∈ files)
    (rule : served? sources others cache = served? sources files cache) : right = left := by
  have entries : right.entries = left.entries := by
    apply Std.ExtTreeMap.ext_getElem?
    intro name
    by_cases listed : ∃ file ∈ files, entryName file = name
    · rcases listed with ⟨file, member, rfl⟩
      rcases first.exists_saved member with ⟨unit, held⟩
      have served := first.served?_of_lookup? held
      rw [← rule] at served
      have again := second.lookup?_of_served? ((members file).mpr member) served
      rcases exists_entry_of_lookup? held with ⟨_, rfl, found⟩
      rcases exists_entry_of_lookup? again with ⟨_, rfl, foundAgain⟩
      exact foundAgain.trans found.symm
    · have unlisted : ∀ file ∈ files, entryName file ≠ name :=
        fun file member named => listed ⟨file, member, named⟩
      rw [first.entries_of_unlisted unlisted, second.entries_of_unlisted]
      exact fun file member => unlisted file ((members file).mp member)
  by_cases start : ∃ entries, cache = .directory entries
  · rcases first.keeps_directory start with ⟨_, rfl⟩
    rcases second.keeps_directory start with ⟨_, rfl⟩
    exact congrArg Cache.directory entries
  · rw [first.eq_of_no_directory start, second.eq_of_no_directory start]

/-- Files of different names may be gathered in any order. -/
theorem gather_perm {reordered : List String} {otherUnits : List CompilationUnit}
    (same : reordered.Perm files) (distinct : (files.map basename).Nodup)
    (returned : (gather sources files cache).units = .ok units)
    (again : (gather sources reordered cache).units = .ok otherUnits) :
    otherUnits.Perm units ∧
      (gather sources reordered cache).cache = (gather sources files cache).cache := by
  have first := obtains_of_gather returned
  have second := obtains_of_gather again
  have rule := served?_perm sources cache.prepare same distinct
  constructor
  · apply (List.map_perm_map_iff fun _ _ => Option.some.inj).mp
    rw [first.units_eq, second.units_eq, rule]
    exact same.map _
  · exact first.left_eq second (fun _ => same.mem_iff) rule

end Cache

/-- A gathering that returns has one unit for each file, in order.  It is the unit that
was saved under the name of the file, or else the source of the first file of that name
up to there.  Afterwards the cache is a directory, if there was any file.  It has these
units under the names of the files, and under all other names what it had before. -/
theorem gather_serves_saved_or_first_source {sources : Sources} {files : List String}
    {cache : Cache} {units : List CompilationUnit}
    (returned : (gather sources files cache).units = .ok units) :
    units.length = files.length ∧
    (∀ (position : Nat) (file : String), files[position]? = some file →
      ∃ unit, units[position]? = some unit ∧
        Cache.served? sources (files.take (position + 1)) cache file = some unit ∧
        (gather sources files cache).cache.lookup? (Cache.entryName file) =
          some (.saved unit)) ∧
    (files ≠ [] → ∃ entries, (gather sources files cache).cache = .directory entries) ∧
    ∀ name, (∀ file ∈ files, Cache.entryName file ≠ name) →
      (gather sources files cache).cache.entries[name]? = cache.entries[name]? := by
  have obtains := Cache.obtains_of_gather returned
  have rule := obtains.units_eq
  rw [Cache.served?_prepare] at rule
  refine ⟨?_, ?_, ?_, ?_⟩
  · have lengths := congrArg List.length rule
    rw [List.length_map, List.length_map] at lengths
    exact lengths
  · intro position file listed
    have place := congrArg (·[position]?) rule
    simp only [List.getElem?_map, listed, Option.map_some, Option.map_eq_some_iff] at place
    rcases place with ⟨unit, served, same⟩
    refine ⟨unit, served, (Cache.served?_take sources cache listed).trans same.symm, ?_⟩
    apply obtains.lookup?_of_served? (List.mem_of_getElem? listed)
    rw [Cache.served?_prepare]
    exact same.symm
  · intro listed
    rcases List.exists_mem_of_ne_nil files listed with ⟨file, member⟩
    rcases obtains.exists_saved member with ⟨unit, held⟩
    rcases Cache.exists_entry_of_lookup? held with ⟨entries, directory, _⟩
    exact ⟨entries, directory⟩
  · intro name unlisted
    rw [obtains.entries_of_unlisted unlisted, Cache.entries_prepare]

/-- A cache with an outdated unit, a spoiled entry and a directory.  Two sources share
the name of the spoiled entry. -/
def patchyCache : Workspace where
  sources := (((∅ : Sources).insert "a/x.c" { id := some "new" }).insert "b/y.c"
    { id := some "first" }).insert "c/y.c" { id := some "second" }
  cache := .directory ((((∅ : Std.ExtTreeMap String Entry).insert "x.c_cache"
    (.saved { id := some "old" })).insert "y.c_cache" .corrupt).insert "z.c_cache" .directory)

/-- The outdated unit is served, and the first source of the spoiled entry replaces it
for both files. -/
theorem gather_serves_saved_or_first_source_patchyCache :
    (gather patchyCache.sources ["a/x.c", "b/y.c", "c/y.c"] patchyCache.cache).units =
      .ok [{ id := some "old" }, { id := some "first" }, { id := some "first" }] ∧
    Cache.served? patchyCache.sources ["a/x.c", "b/y.c", "c/y.c"] patchyCache.cache "c/y.c" =
      some { id := some "first" } ∧
    (gather patchyCache.sources ["a/x.c", "b/y.c", "c/y.c"] patchyCache.cache).cache.lookup?
      "y.c_cache" = some (.saved { id := some "first" }) ∧
    (gather patchyCache.sources ["a/x.c", "b/y.c", "c/y.c"]
      patchyCache.cache).cache.entries["z.c_cache"]? = some .directory := by
  have returned : (gather patchyCache.sources ["a/x.c", "b/y.c", "c/y.c"]
      patchyCache.cache).units =
      .ok [{ id := some "old" }, { id := some "first" }, { id := some "first" }] := rfl
  rcases gather_serves_saved_or_first_source returned with ⟨_, places, _, untouched⟩
  rcases places 2 "c/y.c" rfl with ⟨unit, same, served, held⟩
  cases same
  have named : Cache.entryName "c/y.c" = "y.c_cache" := by decide +kernel
  rw [named] at held
  have kept := untouched "z.c_cache" (by decide +kernel)
  exact ⟨returned, served, held, kept⟩

end Deadwood
