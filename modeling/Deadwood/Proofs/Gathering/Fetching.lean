import Deadwood.Gathering

namespace Deadwood
namespace Cache

/-!
# What fetching a file can do

Fetching a file has four outcomes: its unit is loaded, it is renewed and saved, it
cannot be parsed, or its unit cannot be saved.  The relation below lists them with
all that is known of the file and the cache in each case, so that statements about
gathering need not look into the operations again.  Only a renewal changes the
cache, and it changes one entry.

The log is left out of the relation.
-/

theorem entryName_inj {file other : String} :
    entryName file = entryName other ↔ basename file = basename other := by
  rw [entryName, entryName]
  exact String.append_left_inj _

/-- What saving needs: a directory, a unit that can be saved, a name that is not too
long, and no directory of that name. -/
theorem save?_isSome_iff {cache : Cache} {name : String} {unit : CompilationUnit} :
    (cache.save? name unit).isSome = true ↔
      (∃ entries, cache = .directory entries) ∧ unit.savable = true ∧
      name.utf8ByteSize ≤ longestName ∧ cache.lookup? name ≠ some .directory := by
  cases cache with
  | absent => simp [save?]
  | plainFile => simp [save?]
  | directory entries =>
      by_cases short : name.utf8ByteSize ≤ longestName
      · simp [save?, lookup?, short]
      · simp [save?, short]

theorem directory_of_save? {cache saved : Cache} {name : String} {unit : CompilationUnit}
    (success : cache.save? name unit = some saved) : ∃ entries, saved = .directory entries := by
  cases cache with
  | absent => cases success
  | plainFile => cases success
  | directory entries =>
      rw [save?] at success
      split at success
      · exact ⟨_, (Option.some.inj success).symm⟩
      · cases success

/-- The outcomes of fetching a file: the result and the cache afterwards. -/
inductive Fetches (sources : Sources) (cache : Cache) (file : String) :
    Except GatherFault CompilationUnit → Cache → Prop where
  | loaded {unit : CompilationUnit}
      (held : cache.lookup? (entryName file) = some (.saved unit)) :
      Fetches sources cache file (.ok unit) cache
  | renewed {unit : CompilationUnit} {saved : Cache}
      (missed : ∀ unit, cache.lookup? (entryName file) ≠ some (.saved unit))
      (parsed : sources[file]? = some unit)
      (success : cache.save? (entryName file) unit = some saved) :
      Fetches sources cache file (.ok unit) saved
  | unparsable (missed : ∀ unit, cache.lookup? (entryName file) ≠ some (.saved unit))
      (unknown : sources[file]? = none) :
      Fetches sources cache file (.error .unparsable) cache
  | unsavable {unit : CompilationUnit}
      (missed : ∀ unit, cache.lookup? (entryName file) ≠ some (.saved unit))
      (parsed : sources[file]? = some unit)
      (refused : cache.save? (entryName file) unit = none) :
      Fetches sources cache file (.error .unsavable) cache

theorem renew_fetches {cache : Cache} {file : String} (sources : Sources) (position total : Nat)
    (missed : ∀ unit, cache.lookup? (entryName file) ≠ some (.saved unit)) :
    Fetches sources cache file (cache.renew sources position total file).unit
      (cache.renew sources position total file).cache := by
  unfold renew
  cases parsed : sources[file]? with
  | none => exact .unparsable missed parsed
  | some unit =>
      cases saving : cache.save? (entryName file) unit with
      | none =>
          simp only [saving]
          exact .unsavable missed parsed saving
      | some saved =>
          simp only [saving]
          exact .renewed missed parsed saving

theorem fetch_fetches (sources : Sources) (position total : Nat) (file : String) (cache : Cache) :
    Fetches sources cache file (cache.fetch sources position total file).unit
      (cache.fetch sources position total file).cache := by
  unfold fetch
  cases found : cache.lookup? (entryName file) with
  | none => exact renew_fetches sources position total (by simp [found])
  | some entry =>
      cases entry with
      | saved unit => exact .loaded found
      | corrupt => exact renew_fetches sources position total (by simp [found])
      | directory => exact renew_fetches sources position total (by simp [found])

end Cache
end Deadwood
