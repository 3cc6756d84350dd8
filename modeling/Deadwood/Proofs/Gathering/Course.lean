import Mathlib.Data.List.Forall2
import Deadwood.Proofs.Gathering.Fetching

namespace Deadwood
namespace Cache

/-!
# The course of a gathering

A gathering fetches its files one after the other, each from the cache that the
fetches before it have left.  The relation `Obtains` is a gathering of which every
file was obtained, without its log.  The numbers by which files are announced play
no part in it.  A gathering that fails is one that obtained some files, followed by
a single fetch that changed nothing.

Two facts about one fetch carry over to all files.  A saved entry is never touched
again, and a file whose unit was obtained has left a saved entry.  So the cache at
the end holds every unit that was returned, and from that cache the same files are
obtained again, with the same units and from any sources whatever.
-/

/-! ## How the cache grows -/

/-- Under every name there is what was there before, or a new unit of one of the files
where no unit was saved. -/
def Grows (sources : Sources) (files : List String) (cache next : Cache) : Prop :=
  ∀ name, next.lookup? name = cache.lookup? name ∨
    (∀ unit, cache.lookup? name ≠ some (.saved unit)) ∧
      ∃ file ∈ files, entryName file = name ∧ ∃ unit, sources[file]? = some unit ∧
        next.lookup? name = some (.saved unit)

variable {sources : Sources} {cache next left : Cache} {file name : String}
  {files more : List String} {unit : CompilationUnit} {units : List CompilationUnit}
  {result : Except GatherFault CompilationUnit} {fault : GatherFault}

theorem Grows.refl (sources : Sources) (files : List String) (cache : Cache) :
    Grows sources files cache cache :=
  fun _ => Or.inl rfl

theorem Grows.mono (grows : Grows sources files cache next) (included : files ⊆ more) :
    Grows sources more cache next := by
  intro name
  rcases grows name with same | ⟨missed, file, listed, named, added⟩
  · exact Or.inl same
  · exact Or.inr ⟨missed, file, included listed, named, added⟩

theorem Grows.trans (first : Grows sources files cache next)
    (second : Grows sources files next left) : Grows sources files cache left := by
  intro name
  rcases second name with same | ⟨missed, file, listed, named, added⟩
  · rw [same]
    exact first name
  · rcases first name with before | ⟨_, _, _, _, unit, _, held⟩
    · rw [before] at missed
      exact Or.inr ⟨missed, file, listed, named, added⟩
    · exact absurd held (missed unit)

/-- A saved entry is never touched again. -/
theorem Grows.keeps (grows : Grows sources files cache next)
    (held : cache.lookup? name = some (.saved unit)) :
    next.lookup? name = some (.saved unit) := by
  rcases grows name with same | ⟨missed, _⟩
  · exact same.trans held
  · exact absurd held (missed unit)

/-! ## One file -/

theorem Fetches.grows (fetches : Fetches sources cache file result next) :
    Grows sources [file] cache next := by
  cases fetches with
  | loaded _ => exact Grows.refl _ _ _
  | renewed missed parsed success =>
      intro name
      rw [lookup?_of_save? success]
      by_cases same : name = entryName file
      · subst same
        rw [if_pos rfl]
        exact Or.inr ⟨missed, file, List.mem_singleton_self file, rfl, _, parsed, rfl⟩
      · exact Or.inl (if_neg same)
  | unparsable _ _ => exact Grows.refl _ _ _
  | unsavable _ _ _ => exact Grows.refl _ _ _

/-- A file whose unit was obtained has its entry in the cache. -/
theorem Fetches.holds (fetches : Fetches sources cache file (.ok unit) next) :
    next.lookup? (entryName file) = some (.saved unit) := by
  cases fetches with
  | loaded held => exact held
  | renewed _ _ success => rw [lookup?_of_save? success, if_pos rfl]

theorem Fetches.missed_of_error (failed : Fetches sources cache file (.error fault) next) :
    next = cache ∧ ∀ unit, cache.lookup? (entryName file) ≠ some (.saved unit) := by
  cases failed with
  | unparsable missed _ => exact ⟨rfl, missed⟩
  | unsavable missed _ _ => exact ⟨rfl, missed⟩

/-- Of the sources, only the file that is fetched matters. -/
theorem Fetches.of_sources {other : Sources} (same : other[file]? = sources[file]?)
    (fetches : Fetches sources cache file result next) :
    Fetches other cache file result next := by
  cases fetches with
  | loaded held => exact .loaded held
  | renewed missed parsed success => exact .renewed missed (same.trans parsed) success
  | unparsable missed unknown => exact .unparsable missed (same.trans unknown)
  | unsavable missed parsed refused => exact .unsavable missed (same.trans parsed) refused

/-- An entry that cannot be loaded makes no difference but to the log. -/
theorem fetch_of_missed (position total : Nat)
    (missed : ∀ unit, cache.lookup? (entryName file) ≠ some (.saved unit)) :
    (cache.fetch sources position total file).unit =
        (cache.renew sources position total file).unit ∧
      (cache.fetch sources position total file).cache =
        (cache.renew sources position total file).cache := by
  unfold fetch
  cases found : cache.lookup? (entryName file) with
  | none => exact ⟨rfl, rfl⟩
  | some entry =>
      cases entry with
      | saved unit => exact absurd found (missed unit)
      | corrupt => exact ⟨rfl, rfl⟩
      | directory => exact ⟨rfl, rfl⟩

/-- A fetch has one outcome only, whatever number the file is given. -/
theorem Fetches.fetch_eq (fetches : Fetches sources cache file result next)
    (position total : Nat) :
    (cache.fetch sources position total file).unit = result ∧
      (cache.fetch sources position total file).cache = next := by
  cases fetches with
  | loaded held => simp only [fetch, held, and_self]
  | renewed missed parsed success =>
      rw [(fetch_of_missed position total missed).1, (fetch_of_missed position total missed).2]
      simp only [renew, parsed, success, and_self]
  | unparsable missed unknown =>
      rw [(fetch_of_missed position total missed).1, (fetch_of_missed position total missed).2]
      simp only [renew, unknown, and_self]
  | unsavable missed parsed refused =>
      rw [(fetch_of_missed position total missed).1, (fetch_of_missed position total missed).2]
      simp only [renew, parsed, refused, and_self]

/-! ## All files -/

/-- The files are obtained, with these units and leaving this cache. -/
inductive Obtains (sources : Sources) :
    Cache → List String → List CompilationUnit → Cache → Prop where
  | nil {cache : Cache} : Obtains sources cache [] [] cache
  | cons {cache next left : Cache} {file : String} {files : List String}
      {unit : CompilationUnit} {units : List CompilationUnit}
      (fetched : Fetches sources cache file (.ok unit) next)
      (rest : Obtains sources next files units left) :
      Obtains sources cache (file :: files) (unit :: units) left

theorem Obtains.grows (obtains : Obtains sources cache files units left) :
    Grows sources files cache left := by
  induction obtains with
  | nil => exact Grows.refl _ _ _
  | cons fetched _ ih =>
      exact (fetched.grows.mono (List.cons_subset_cons _ (List.nil_subset _))).trans
        (ih.mono (List.subset_cons_self _ _))

/-- At the end the cache holds all units that were returned. -/
theorem Obtains.holds (obtains : Obtains sources cache files units left) :
    List.Forall₂ (fun file unit => left.lookup? (entryName file) = some (.saved unit))
      files units := by
  induction obtains with
  | nil => exact .nil
  | cons fetched rest ih => exact .cons (rest.grows.keeps fetched.holds) ih

theorem Obtains.exists_saved (obtains : Obtains sources cache files units left)
    (listed : file ∈ files) : ∃ unit, left.lookup? (entryName file) = some (.saved unit) := by
  induction obtains with
  | nil => cases listed
  | cons fetched rest ih =>
      rcases List.mem_cons.mp listed with same | later
      · subst same
        exact ⟨_, rest.grows.keeps fetched.holds⟩
      · exact ih later

/-- Whatever has the name of an obtained file is saved at the end. -/
theorem Obtains.exists_saved_of_namesake (obtains : Obtains sources cache files units left)
    (named : basename file ∈ files.map basename) :
    ∃ unit, left.lookup? (entryName file) = some (.saved unit) := by
  rcases List.mem_map.mp named with ⟨other, listed, same⟩
  rcases obtains.exists_saved listed with ⟨unit, held⟩
  rw [entryName_inj.mpr same] at held
  exact ⟨unit, held⟩

/-- A file whose entry was saved before is served the unit of the entry. -/
theorem Obtains.serves (obtains : Obtains sources cache files units left)
    (held : cache.lookup? (entryName file) = some (.saved unit)) {position : Nat}
    (listed : files[position]? = some file) : units[position]? = some unit := by
  induction obtains generalizing position with
  | nil => cases listed
  | cons fetched _ ih =>
      cases position with
      | zero =>
          cases listed
          have same := fetched.holds.symm.trans (fetched.grows.keeps held)
          cases same
          rfl
      | succ position => exact ih (fetched.grows.keeps held) listed

/-- Files whose units are all in the cache are obtained by loading them. -/
theorem obtains_of_saved (sources : Sources)
    (saved : List.Forall₂ (fun file unit => cache.lookup? (entryName file) = some (.saved unit))
      files units) : Obtains sources cache files units cache := by
  induction saved with
  | nil => exact .nil
  | cons held _ ih => exact .cons (.loaded held) ih

theorem Obtains.of_sources {other : Sources} (obtains : Obtains sources cache files units left)
    (same : ∀ file ∈ files, other[file]? = sources[file]?) :
    Obtains other cache files units left := by
  induction obtains with
  | nil => exact .nil
  | cons fetched _ ih =>
      refine .cons (fetched.of_sources (same _ List.mem_cons_self)) (ih ?_)
      intro file listed
      exact same file (List.mem_cons_of_mem _ listed)

/-- Files in two parts are obtained one part after the other. -/
theorem Obtains.exists_of_append (obtains : Obtains sources cache (files ++ more) units left) :
    ∃ earlier later next, units = earlier ++ later ∧
      Obtains sources cache files earlier next ∧ Obtains sources next more later left := by
  induction files generalizing cache units with
  | nil => exact ⟨[], units, cache, rfl, .nil, obtains⟩
  | cons file files ih =>
      cases obtains with
      | @cons _ _ _ _ _ unit _ fetched rest =>
          rcases ih rest with ⟨earlier, later, next, split, first, second⟩
          refine ⟨unit :: earlier, later, next, ?_, .cons fetched first, second⟩
          rw [split, List.cons_append]

theorem Obtains.append {further : List CompilationUnit} {last : Cache}
    (first : Obtains sources cache files units left)
    (second : Obtains sources left more further last) :
    Obtains sources cache (files ++ more) (units ++ further) last := by
  induction first with
  | nil => exact second
  | cons fetched _ ih => exact .cons fetched (ih second)

theorem prepare_prepare (cache : Cache) : cache.prepare.prepare = cache.prepare := by
  cases cache <;> rfl

/-- A directory for the cache is made once. -/
theorem Obtains.prepare_eq (obtains : Obtains sources cache files units left)
    (prepared : cache.prepare = cache) : left.prepare = left := by
  induction obtains with
  | nil => exact prepared
  | cons fetched _ ih =>
      apply ih
      cases fetched with
      | loaded _ => exact prepared
      | renewed _ _ success =>
          rcases directory_of_save? success with ⟨entries, rfl⟩
          rfl

/-! ## From the relation to the gathering and back -/

/-- Once some files are obtained, a gathering goes on from the cache they leave. -/
theorem Obtains.fetchAll_append (obtains : Obtains sources cache files units left)
    (total position : Nat) (more : List String) :
    (cache.fetchAll sources total position (files ++ more)).units =
        (left.fetchAll sources total (position + files.length) more).units.map (units ++ ·) ∧
      (cache.fetchAll sources total position (files ++ more)).cache =
        (left.fetchAll sources total (position + files.length) more).cache := by
  induction obtains generalizing position with
  | nil =>
      refine ⟨?_, rfl⟩
      exact (congrFun Except.map_id _).symm
  | @cons cache next left file files unit units fetched rest ih =>
      rcases fetched.fetch_eq position total with ⟨served, kept⟩
      rcases ih (position + 1) with ⟨returned, remaining⟩
      have further : position + (file :: files).length = position + 1 + files.length := by
        rw [List.length_cons]
        omega
      rw [List.cons_append, fetchAll, further]
      simp only [served, kept, returned, remaining, and_true]
      cases (left.fetchAll sources total (position + 1 + files.length) more).units with
      | error fault => rfl
      | ok others => rfl

/-- A gathering obtains all files, or it obtains those before one that cannot be
fetched and leaves the cache there. -/
theorem fetchAll_cases (sources : Sources) (total position : Nat) (files : List String)
    (cache : Cache) :
    (∃ units, (cache.fetchAll sources total position files).units = .ok units ∧
      Obtains sources cache files units
        (cache.fetchAll sources total position files).cache) ∨
    ∃ front file back units fault, files = front ++ file :: back ∧
      (cache.fetchAll sources total position files).units = .error fault ∧
      Obtains sources cache front units (cache.fetchAll sources total position files).cache ∧
      Fetches sources (cache.fetchAll sources total position files).cache file (.error fault)
        (cache.fetchAll sources total position files).cache := by
  induction files generalizing cache position with
  | nil => exact Or.inl ⟨[], rfl, .nil⟩
  | cons file files ih =>
      have fetches := fetch_fetches sources position total file cache
      rw [fetchAll]
      cases served : (cache.fetch sources position total file).unit with
      | error fault =>
          rw [served] at fetches
          have same := fetches.missed_of_error.1
          rw [same] at fetches
          refine Or.inr ⟨[], file, files, [], fault, rfl, rfl, ?_, ?_⟩
          · rw [same]
            exact .nil
          · rw [same]
            exact fetches
      | ok unit =>
          rw [served] at fetches
          rcases ih (position + 1) (cache.fetch sources position total file).cache with
            ⟨units, returned, rest⟩ | ⟨front, failing, back, units, fault, split, failed, rest, last⟩
          · refine Or.inl ⟨unit :: units, ?_, .cons fetches rest⟩
            simp only [returned]
            rfl
          · refine Or.inr ⟨file :: front, failing, back, unit :: units, fault, ?_, ?_,
              .cons fetches rest, last⟩
            · rw [split, List.cons_append]
            · simp only [failed]
              rfl

theorem Obtains.gather_eq (obtains : Obtains sources cache.prepare files units left) :
    (gather sources files cache).units = .ok units ∧
      (gather sources files cache).cache = left := by
  have whole := obtains.fetchAll_append files.length 1 []
  rw [List.append_nil] at whole
  refine ⟨whole.1.trans ?_, whole.2⟩
  simp only [fetchAll, Except.map, List.append_nil]

/-- A file that cannot be fetched ends the gathering, whatever comes after it. -/
theorem Obtains.gather_of_failed (obtains : Obtains sources cache.prepare files units left)
    (failed : Fetches sources left file (.error fault) left) (back : List String) :
    (gather sources (files ++ file :: back) cache).units = .error fault ∧
      (gather sources (files ++ file :: back) cache).cache = left := by
  rcases failed.fetch_eq (1 + files.length) (files ++ file :: back).length with ⟨stopped, kept⟩
  rcases obtains.fetchAll_append (files ++ file :: back).length 1 (file :: back) with
    ⟨returned, remaining⟩
  rw [gather]
  refine ⟨returned.trans ?_, remaining.trans ?_⟩
  · simp only [fetchAll, stopped, Except.map]
  · simp only [fetchAll, stopped, kept]

theorem gather_cases (sources : Sources) (files : List String) (cache : Cache) :
    (∃ units, (gather sources files cache).units = .ok units ∧
      Obtains sources cache.prepare files units (gather sources files cache).cache) ∨
    ∃ front file back units fault, files = front ++ file :: back ∧
      (gather sources files cache).units = .error fault ∧
      Obtains sources cache.prepare front units (gather sources files cache).cache ∧
      Fetches sources (gather sources files cache).cache file (.error fault)
        (gather sources files cache).cache :=
  fetchAll_cases sources files.length 1 files cache.prepare

theorem obtains_of_gather (returned : (gather sources files cache).units = .ok units) :
    Obtains sources cache.prepare files units (gather sources files cache).cache := by
  rcases gather_cases sources files cache with
    ⟨served, same, obtains⟩ | ⟨_, _, _, _, fault, _, failed, _, _⟩
  · rw [returned] at same
    cases same
    exact obtains
  · rw [returned] at failed
    cases failed

/-- Further files do not change the units of those before them. -/
theorem prefix_of_gather_append {all : List CompilationUnit}
    (returned : (gather sources files cache).units = .ok units)
    (extended : (gather sources (files ++ more) cache).units = .ok all) : units <+: all := by
  rcases (obtains_of_gather extended).exists_of_append with
    ⟨earlier, later, next, split, first, _⟩
  rw [first.gather_eq.1] at returned
  cases returned
  exact ⟨later, split.symm⟩

/-- A gathering grows the cache, whether it returns or fails. -/
theorem gather_grows (sources : Sources) (files : List String) (cache : Cache) :
    Grows sources files cache (gather sources files cache).cache := by
  have prepared : Grows sources files cache.prepare (gather sources files cache).cache := by
    rcases gather_cases sources files cache with
      ⟨units, _, obtains⟩ | ⟨front, file, back, units, fault, split, _, obtains, _⟩
    · exact obtains.grows
    · apply obtains.grows.mono
      rw [split]
      exact List.subset_append_left front (file :: back)
  intro name
  have grown := prepared name
  rw [lookup?_prepare] at grown
  exact grown

end Cache
end Deadwood
