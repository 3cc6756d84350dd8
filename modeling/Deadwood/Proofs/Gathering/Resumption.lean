import Deadwood.Proofs.Gathering.Course
import Deadwood.Session

namespace Deadwood

/-!
# Gathering again after a failure

A gathering fails at one file and leaves behind what it saved until then.  Suppose
that this file is mended, in whatever way, and that the same files are gathered
again.  The files before it are now loaded from the half-filled cache, where the
first attempt had to parse them.  The result is nevertheless the one that a single
gathering of the mended sources would have had from the beginning.

The reason is that the failing file cannot occur earlier in the list, and neither
can a namesake of it, since its entry would have been saved then.  Mending it
therefore changes nothing for the files before it.  What is wrong with the file does
not matter, and it may fail again.
-/

theorem getElem?_assign_of_ne {α : Type} (values : Std.ExtTreeMap String α) {key other : String}
    (different : other ≠ key) (value : Option α) :
    (assign values key value)[other]? = values[other]? := by
  cases value with
  | none => simp [assign, Std.ExtTreeMap.getElem?_erase, different.symm]
  | some value => simp [assign, Std.ExtTreeMap.getElem?_insert, different.symm]

namespace Cache

variable {sources : Sources} {files : List String} {cache left : Cache} {fault : GatherFault}

/-! ## Where a gathering stops -/

/-- The gathering stops at the file in this position, counted from zero: the files
before it can be gathered, and together with it they cannot. -/
def StopsAt (sources : Sources) (files : List String) (cache : Cache) (position : Nat)
    (fault : GatherFault) : Prop :=
  (∃ units, (gather sources (files.take position) cache).units = .ok units) ∧
    (gather sources (files.take (position + 1)) cache).units = .error fault

/-- More files do not help a gathering that fails. -/
theorem gather_append_of_error (failed : (gather sources files cache).units = .error fault)
    (more : List String) : (gather sources (files ++ more) cache).units = .error fault := by
  rcases gather_cases sources files cache with
    ⟨units, returned, _⟩ | ⟨front, file, back, units, reason, split, stopped, obtains, last⟩
  · rw [returned] at failed
    cases failed
  · rw [stopped] at failed
    cases failed
    rw [split, List.append_assoc, List.cons_append]
    exact (obtains.gather_of_failed last (back ++ more)).1

theorem StopsAt.le {position other : Nat} {reason : GatherFault}
    (stops : StopsAt sources files cache position fault)
    (again : StopsAt sources files cache other reason) : other ≤ position := by
  apply Nat.le_of_not_lt
  intro later
  have longer : files.take other =
      files.take (position + 1) ++ (files.take other).drop (position + 1) := by
    have prefixed := List.take_append_drop (position + 1) (files.take other)
    rw [List.take_take, Nat.min_eq_left later] at prefixed
    exact prefixed.symm
  rcases again.1 with ⟨units, returned⟩
  rw [longer, gather_append_of_error stops.2] at returned
  cases returned

/-- A gathering that fails stops in one position, where its fault arises. -/
theorem StopsAt.unique {position other : Nat} {reason : GatherFault}
    (stops : StopsAt sources files cache position fault)
    (again : StopsAt sources files cache other reason) : other = position ∧ reason = fault := by
  have same : other = position := Nat.le_antisymm (stops.le again) (again.le stops)
  subst same
  have faults := again.2.symm.trans stops.2
  cases faults
  exact ⟨rfl, rfl⟩

/-- A file that cannot be fetched was not obtained before. -/
theorem Obtains.not_mem_of_failed {units : List CompilationUnit} {file : String}
    (obtains : Obtains sources cache files units left)
    (failed : Fetches sources left file (.error fault) left) : file ∉ files := by
  intro listed
  rcases obtains.exists_saved listed with ⟨unit, held⟩
  exact failed.missed_of_error.2 unit held

theorem stopsAt_of_failed {front back : List String} {file : String}
    {units : List CompilationUnit} (obtains : Obtains sources cache.prepare front units left)
    (failed : Fetches sources left file (.error fault) left) :
    StopsAt sources (front ++ file :: back) cache front.length fault := by
  constructor
  · rw [List.take_left]
    exact ⟨units, obtains.gather_eq.1⟩
  · rw [List.take_length_add_append, List.take_succ_cons, List.take_zero]
    exact (obtains.gather_of_failed failed []).1

/-! ## Starting again -/

/-- Files that were obtained once need not be obtained again: from the cache that
they left, a gathering comes to the same as from where they started. -/
theorem Obtains.gather_again {other : Sources} {units : List CompilationUnit}
    (obtains : Obtains sources cache.prepare files units left)
    (same : ∀ file ∈ files, other[file]? = sources[file]?) (more : List String) :
    (gather other (files ++ more) left).units = (gather other (files ++ more) cache).units ∧
      (gather other (files ++ more) left).cache = (gather other (files ++ more) cache).cache := by
  have prepared : left.prepare = left := obtains.prepare_eq (prepare_prepare cache)
  -- Both gatherings come to `left` after these files, one by fetching and one by loading.
  have afresh := (obtains.of_sources same).fetchAll_append (files ++ more).length 1 more
  have replayed := (obtains_of_saved other obtains.holds).fetchAll_append
    (files ++ more).length 1 more
  rw [gather, gather, prepared]
  exact ⟨replayed.1.trans afresh.1.symm, replayed.2.trans afresh.2.symm⟩

end Cache

/-- A gathering that fails stops in one position.  If the source of the file there is
replaced, added or removed, then a second gathering with the cache that the first one
left has the units, or the fault, and leaves the cache of a gathering that starts
with the mended sources and the original cache. -/
theorem gather_resumes_after_mending {sources : Sources} {files : List String} {cache : Cache}
    {fault : GatherFault} (failed : (gather sources files cache).units = .error fault) :
    ∃ position file, files[position]? = some file ∧
      (∀ other reason, Cache.StopsAt sources files cache other reason ↔
        other = position ∧ reason = fault) ∧
      ∀ mended : Option CompilationUnit,
        (gather (assign sources file mended) files (gather sources files cache).cache).units =
            (gather (assign sources file mended) files cache).units ∧
          (gather (assign sources file mended) files (gather sources files cache).cache).cache =
            (gather (assign sources file mended) files cache).cache := by
  rcases Cache.gather_cases sources files cache with
    ⟨units, returned, _⟩ | ⟨front, file, back, units, reason, split, stopped, obtains, last⟩
  · rw [returned] at failed
    cases failed
  · rw [stopped] at failed
    cases failed
    have position : Cache.StopsAt sources files cache front.length fault := by
      rw [split]
      exact Cache.stopsAt_of_failed obtains last
    refine ⟨front.length, file, ?_, ?_, ?_⟩
    · rw [split, List.getElem?_append_right (Nat.le_refl _), Nat.sub_self]
      rfl
    · intro other reason
      constructor
      · intro stops
        exact position.unique stops
      · rintro ⟨rfl, rfl⟩
        exact position
    · intro mended
      have unaffected : ∀ earlier ∈ front,
          (assign sources file mended)[earlier]? = sources[earlier]? := by
        intro earlier listed
        apply getElem?_assign_of_ne
        intro same
        exact obtains.not_mem_of_failed last (same ▸ listed)
      have again := obtains.gather_again unaffected (file :: back)
      rw [← split] at again
      exact again

/-- A cache with a spoiled entry, and a source for one of two names. -/
def halfSupplied : Workspace where
  sources := (∅ : Sources).insert "a/x.c" { id := some "x" }
  cache := .directory ((∅ : Std.ExtTreeMap String Entry).insert "x.c_cache" .corrupt)

/-- The first attempt renews the entry of `x.c` and stops at `y.c`, which has no
source.  The second one loads `x.c` and goes on to the end. -/
theorem gather_resumes_after_mending_halfSupplied :
    (gather halfSupplied.sources ["a/x.c", "b/y.c", "c/x.c", "b/y.c"] halfSupplied.cache).units =
      .error .unparsable ∧
    (gather (assign halfSupplied.sources "b/y.c" (some { id := some "y" }))
        ["a/x.c", "b/y.c", "c/x.c", "b/y.c"] halfSupplied.cache).units =
      .ok [{ id := some "x" }, { id := some "y" }, { id := some "x" }, { id := some "y" }] ∧
    (gather (assign halfSupplied.sources "b/y.c" (some { id := some "y" }))
        ["a/x.c", "b/y.c", "c/x.c", "b/y.c"]
        (gather halfSupplied.sources ["a/x.c", "b/y.c", "c/x.c", "b/y.c"]
          halfSupplied.cache).cache).units =
      (gather (assign halfSupplied.sources "b/y.c" (some { id := some "y" }))
        ["a/x.c", "b/y.c", "c/x.c", "b/y.c"] halfSupplied.cache).units := by
  have failed : (gather halfSupplied.sources ["a/x.c", "b/y.c", "c/x.c", "b/y.c"]
      halfSupplied.cache).units = .error .unparsable := rfl
  rcases gather_resumes_after_mending failed with ⟨position, file, listed, stops, same⟩
  have second : 1 = position := ((stops 1 .unparsable).mp ⟨⟨_, rfl⟩, rfl⟩).1
  subst second
  cases listed
  exact ⟨failed, rfl, (same _).1⟩

end Deadwood
