import Deadwood.Proofs.Gathering.Serving
import Deadwood.Proofs.Log.Views

namespace Deadwood
namespace Cache

/-!
# Gathering from a warm cache

A gathering that returns has left a unit under the name of each of its files, whether
the unit was there before, was parsed, or took the place of a spoiled entry.  A second
gathering that lists no other names finds all it needs in the cache.  It loads every
file once and does nothing else to the files or to the cache.

The sources do not enter the second gathering at all.  They may have been changed,
added or removed in the meantime, and nothing shows it.
-/

variable {cache : Cache} {files : List String} {units : List CompilationUnit}

/-- What is recorded of a file whose unit is loaded. -/
def loading (file : String) : Log :=
  .load (entryPath file) :: Log.announce ("[-] Loading cached AST for " ++ file)

/-- Loading a file touches its entry once. -/
theorem filter_handlesFile_loading (file : String) :
    (loading file).filter Event.handlesFile = [.load (entryPath file)] := by
  have spoken : (Log.announce ("[-] Loading cached AST for " ++ file)).filter Event.handlesFile =
      [] := by
    apply List.filter_eq_nil_iff.mpr
    intro event said
    rw [Log.sparesFiles_announce _ event said]
    exact Bool.false_ne_true
  rw [loading, List.filter_cons_of_pos rfl, spoken]

theorem fetch_of_saved {file : String} {unit : CompilationUnit} (sources : Sources)
    (position total : Nat) (held : cache.lookup? (entryName file) = some (.saved unit)) :
    cache.fetch sources position total file = ⟨.ok unit, cache, loading file⟩ := by
  rw [fetch, held]
  rfl

/-- A gathering of files that are all saved, with its log.  Neither the sources nor the
numbers of the files occur in the outcome. -/
theorem fetchAll_of_saved (sources : Sources) (total position : Nat)
    (saved : List.Forall₂ (fun file unit => cache.lookup? (entryName file) = some (.saved unit))
      files units) :
    cache.fetchAll sources total position files = ⟨.ok units, cache, files.flatMap loading⟩ := by
  induction saved generalizing position with
  | nil => rfl
  | cons held _ ih =>
      rw [fetchAll]
      simp only [fetch_of_saved sources position total held, ih, List.flatMap_cons]
      rfl

/-- Units can be named for files that are all saved. -/
theorem exists_units_of_saved
    (saved : ∀ file ∈ files, ∃ unit, cache.lookup? (entryName file) = some (.saved unit)) :
    ∃ units, List.Forall₂
      (fun file unit => cache.lookup? (entryName file) = some (.saved unit)) files units := by
  induction files with
  | nil => exact ⟨[], .nil⟩
  | cons file files ih =>
      rcases saved file List.mem_cons_self with ⟨unit, held⟩
      rcases ih fun other listed => saved other (List.mem_cons_of_mem _ listed) with ⟨units, rest⟩
      exact ⟨unit :: units, .cons held rest⟩

end Cache

/-- After a gathering that returned, any files that have no other names are gathered from
the cache alone.  Each of them is loaded once, and nothing is parsed or saved.  It is
served what the first gathering returned in every position of its name.  The cache stays
as it is, whatever has become of the sources.  In particular the same files are served
the same units. -/
theorem gather_replays_from_warm_cache {sources : Sources} {files : List String} {cache : Cache}
    {units : List CompilationUnit} (returned : (gather sources files cache).units = .ok units)
    (others : Sources) {again : List String}
    (named : ∀ file ∈ again, Cache.basename file ∈ files.map Cache.basename) :
    (∃ served,
      (gather others again (gather sources files cache).cache).units = .ok served ∧
      List.Forall₂ (fun file unit => ∀ (position : Nat) (other : String),
        files[position]? = some other → Cache.basename other = Cache.basename file →
          units[position]? = some unit) again served) ∧
    (gather others again (gather sources files cache).cache).log.filter Event.handlesFile =
      again.map (fun file => .load (Cache.entryPath file)) ∧
    (gather others again (gather sources files cache).cache).cache =
      (gather sources files cache).cache ∧
    (gather others files (gather sources files cache).cache).units = .ok units := by
  have obtains := Cache.obtains_of_gather returned
  have prepared := obtains.prepare_eq (Cache.prepare_prepare cache)
  have same := Cache.obtains_of_saved others obtains.holds
  rcases Cache.exists_units_of_saved fun file listed =>
    obtains.exists_saved_of_namesake (named file listed) with ⟨served, saved⟩
  have replayed : gather others again (gather sources files cache).cache =
      ⟨.ok served, (gather sources files cache).cache, again.flatMap Cache.loading⟩ := by
    rw [gather, prepared]
    exact Cache.fetchAll_of_saved others again.length 1 saved
  rw [replayed]
  refine ⟨⟨served, rfl, ?_⟩, ?_, rfl, ?_⟩
  · apply saved.imp
    intro file unit held position other listed alike
    rw [← Cache.entryName_inj.mpr alike] at held
    exact same.serves held listed
  · rw [List.filter_flatMap, List.map_eq_flatMap]
    congr 1
    funext file
    exact Cache.filter_handlesFile_loading file
  · rw [← prepared] at same
    exact same.gather_eq.1

/-- All sources are gone, and two files are asked for by names in other directories. -/
theorem gather_replays_from_warm_cache_patchyCache :
    (gather patchyCache.sources ["a/x.c", "b/y.c", "c/y.c"] patchyCache.cache).units =
      .ok [{ id := some "old" }, { id := some "first" }, { id := some "first" }] ∧
    (gather ∅ ["d/y.c", "x.c", "d/y.c"] (gather patchyCache.sources ["a/x.c", "b/y.c", "c/y.c"]
      patchyCache.cache).cache).units =
      .ok [{ id := some "first" }, { id := some "old" }, { id := some "first" }] ∧
    (gather ∅ ["d/y.c", "x.c", "d/y.c"] (gather patchyCache.sources ["a/x.c", "b/y.c", "c/y.c"]
      patchyCache.cache).cache).log.filter Event.handlesFile =
      [.load ".cache/y.c_cache", .load ".cache/x.c_cache", .load ".cache/y.c_cache"] := by
  have returned : (gather patchyCache.sources ["a/x.c", "b/y.c", "c/y.c"]
      patchyCache.cache).units =
      .ok [{ id := some "old" }, { id := some "first" }, { id := some "first" }] := rfl
  have named : ∀ file ∈ ["d/y.c", "x.c", "d/y.c"],
      Cache.basename file ∈ ["a/x.c", "b/y.c", "c/y.c"].map Cache.basename := by decide +kernel
  have paths : ["d/y.c", "x.c", "d/y.c"].map (fun file => Event.load (Cache.entryPath file)) =
      [.load ".cache/y.c_cache", .load ".cache/x.c_cache", .load ".cache/y.c_cache"] := by
    decide +kernel
  have second : Cache.basename "b/y.c" = Cache.basename "d/y.c" := by decide +kernel
  have first : Cache.basename "a/x.c" = Cache.basename "x.c" := by decide +kernel
  rcases gather_replays_from_warm_cache returned ∅ named with
    ⟨⟨served, again, matched⟩, loads, _, _⟩
  rw [paths] at loads
  cases matched with
  | cons one rest =>
      cases rest with
      | cons two rest =>
          cases rest with
          | cons three rest =>
              cases rest
              cases one 1 "b/y.c" rfl second
              cases two 0 "a/x.c" rfl first
              cases three 1 "b/y.c" rfl second
              exact ⟨returned, again, loads⟩

end Deadwood
