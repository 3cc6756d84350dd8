import Deadwood.Proofs.Detection.Stages
import Deadwood.Proofs.Gathering.Course
import Deadwood.Proofs.Session.Namesakes

namespace Deadwood

/-!
# Entries are written once

The cache is followed here through sessions in which everything else may change.
Sources are edited, added and removed between the steps, and runs fail at any stage.
As long as only the program itself writes to the cache, an entry that has been saved
stays as it is for the rest of the session.  The unit in it was the source of a listed
file when the step began that saved it.  Every later gathering is served this unit for
all files of that name, however old it has become.

What a gathering may do to a cache is known from its course, whether it returns or
fails.  The statements about sessions follow from this by induction over the steps.
-/

namespace Cache

/-! ## Clean caches -/

/-- Nothing but saved units is in the cache, under names that can be looked up. -/
def Clean : Cache → Prop
  | .absent => True
  | .plainFile => False
  | .directory entries => ∀ (name : String) (entry : Entry), entries[name]? = some entry →
      name.utf8ByteSize ≤ longestName ∧ ∃ unit, entry = .saved unit

variable {sources : Sources} {cache next left : Cache} {name : String} {files : List String}
  {units : List CompilationUnit}

theorem clean_prepare (clean : Clean cache) : Clean cache.prepare := by
  cases cache with
  | absent =>
      intro name entry found
      simp at found
  | plainFile => exact clean
  | directory entries => exact clean

theorem clean_of_save? {unit : CompilationUnit} (clean : Clean cache)
    (success : cache.save? name unit = some next) : Clean next := by
  cases cache with
  | absent => cases success
  | plainFile => cases success
  | directory entries =>
      rw [save?] at success
      split at success
      · rename_i allowed
        cases success
        intro other entry found
        by_cases same : name = other
        · subst same
          rw [Std.ExtTreeMap.getElem?_insert_self] at found
          exact ⟨allowed.2.1, unit, (Option.some.inj found).symm⟩
        · rw [Std.ExtTreeMap.getElem?_insert, if_neg (by simpa using same)] at found
          exact clean other entry found
      · cases success

theorem Clean.lookup?_cases (clean : Clean cache) (name : String) :
    cache.lookup? name = none ∨ ∃ unit, cache.lookup? name = some (.saved unit) := by
  cases cache with
  | absent => exact Or.inl rfl
  | plainFile => exact Or.inl rfl
  | directory entries =>
      rw [lookup?]
      split
      · cases found : entries[name]? with
        | none => exact Or.inl rfl
        | some entry =>
            rcases (clean name entry found).2 with ⟨unit, rfl⟩
            exact Or.inr ⟨unit, rfl⟩
      · exact Or.inl rfl

theorem Obtains.clean (obtains : Obtains sources cache files units left) (clean : Clean cache) :
    Clean left := by
  induction obtains with
  | nil => exact clean
  | cons fetched _ ih =>
      apply ih
      cases fetched with
      | loaded _ => exact clean
      | renewed _ _ success => exact clean_of_save? clean success

theorem clean_gather (sources : Sources) (files : List String) (clean : Clean cache) :
    Clean (gather sources files cache).cache := by
  rcases gather_cases sources files cache with
    ⟨units, _, obtains⟩ | ⟨front, file, back, units, fault, _, _, obtains, _⟩
  · exact obtains.clean (clean_prepare clean)
  · exact obtains.clean (clean_prepare clean)

end Cache

/-! ## Steps of a session -/

/-- Whether an edit leaves the cache alone. -/
def Edit.sparesCache : Edit → Bool
  | .cache _ => false
  | .entry _ _ => false
  | _ => true

namespace Workspace

/-- The workspace in which the command of a step is run. -/
def edited (workspace : Workspace) (step : Step) : Workspace :=
  step.edits.foldl edit workspace

/-- The files that a command gathers, if it comes to that. -/
def gatheredBy? (workspace : Workspace) : Command → Option (List String)
  | .survey _ _ _ _ => none
  | .gather files => some files
  | .detect _ arguments => gatheredFiles? workspace.binaries arguments

/-- A step saves this unit under a name where nothing was.  It is the source of a file
that the step gathers. -/
structure Writes (workspace : Workspace) (step : Step) (name : String)
    (unit : CompilationUnit) : Prop where
  missing : workspace.cache.lookup? name = none
  source : ∃ files, (workspace.edited step).gatheredBy? step.command = some files ∧
    ∃ file ∈ files, Cache.entryName file = name ∧
      (workspace.edited step).sources[file]? = some unit
  saved : (workspace.step step).2.cache.lookup? name = some (.saved unit)

variable {workspace start : Workspace} {step : Step} {steps : List Step}

theorem edited_cache (spared : ∀ edit ∈ step.edits, edit.sparesCache = true) :
    (workspace.edited step).cache = workspace.cache := by
  have kept : ∀ edits : List Edit, (∀ edit ∈ edits, edit.sparesCache = true) →
      ∀ before : Workspace, (edits.foldl edit before).cache = before.cache := by
    intro edits
    induction edits with
    | nil => exact fun _ _ => rfl
    | cons first edits ih =>
        intro spared before
        have later := ih (fun edit listed => spared edit (List.mem_cons_of_mem _ listed))
          (before.edit first)
        rw [List.foldl_cons, later]
        cases first with
        | source file unit => rfl
        | binary name binary => rfl
        | cache cache => cases spared _ List.mem_cons_self
        | entry name entry => cases spared _ List.mem_cons_self
        | report report => rfl
  exact kept step.edits spared workspace

/-- A command changes the cache by gathering only. -/
theorem run_cache (workspace : Workspace) (command : Command) :
    (workspace.run command).2.cache =
      match workspace.gatheredBy? command with
      | none => workspace.cache
      | some files => (gather workspace.sources files workspace.cache).cache := by
  cases command with
  | survey functions limits used units => rfl
  | gather files => rfl
  | detect limits arguments => exact detect_cache limits arguments workspace

theorem step_cache (spared : ∀ edit ∈ step.edits, edit.sparesCache = true) :
    (workspace.step step).2.cache =
      match (workspace.edited step).gatheredBy? step.command with
      | none => workspace.cache
      | some files =>
          (gather (workspace.edited step).sources files workspace.cache).cache := by
  have ran := run_cache (workspace.edited step) step.command
  rw [edited_cache spared] at ran
  exact ran

theorem clean_step (spared : ∀ edit ∈ step.edits, edit.sparesCache = true)
    (clean : Cache.Clean workspace.cache) : Cache.Clean (workspace.step step).2.cache := by
  rw [step_cache spared]
  split
  · exact clean
  · exact Cache.clean_gather _ _ clean

/-- An entry of a clean cache stays through a step, and a new one is written by it. -/
theorem lookup?_step (spared : ∀ edit ∈ step.edits, edit.sparesCache = true)
    (clean : Cache.Clean workspace.cache) (name : String) :
    (workspace.step step).2.cache.lookup? name = workspace.cache.lookup? name ∨
      ∃ unit, workspace.Writes step name unit := by
  cases gathered : (workspace.edited step).gatheredBy? step.command with
  | none =>
      have changed : (workspace.step step).2.cache = workspace.cache := by
        rw [step_cache spared, gathered]
      exact Or.inl (congrArg (·.lookup? name) changed)
  | some files =>
      have changed : (workspace.step step).2.cache =
          (gather (workspace.edited step).sources files workspace.cache).cache := by
        rw [step_cache spared, gathered]
      rcases Cache.gather_grows (workspace.edited step).sources files workspace.cache name with
        same | ⟨missed, file, listed, named, unit, parsed, added⟩
      · exact Or.inl ((congrArg (·.lookup? name) changed).trans same)
      · refine Or.inr ⟨unit, ?_, ⟨files, gathered, file, listed, named, parsed⟩, ?_⟩
        · rcases clean.lookup?_cases name with missing | ⟨other, held⟩
          · exact missing
          · exact absurd held (missed other)
        · exact (congrArg (·.lookup? name) changed).trans added

/-! ## Whole sessions -/

/-- The workspace after one step more, or the same one if the session is over. -/
theorem after_take_succ (start : Workspace) (steps : List Step) (k : Nat) :
    start.after (steps.take (k + 1)) =
      match steps[k]? with
      | none => start.after (steps.take k)
      | some step => ((start.after (steps.take k)).step step).2 := by
  rw [after, List.take_add_one, List.foldl_append]
  cases steps[k]? with
  | none => rfl
  | some step => rfl

theorem clean_after (fresh : start.cache = .absent)
    (spared : ∀ step ∈ steps, ∀ edit ∈ step.edits, edit.sparesCache = true) (k : Nat) :
    Cache.Clean (start.after (steps.take k)).cache := by
  induction k with
  | zero =>
      change Cache.Clean start.cache
      rw [fresh]
      exact trivial
  | succ k ih =>
      rw [after_take_succ]
      cases listed : steps[k]? with
      | none => exact ih
      | some step => exact clean_step (spared step (List.mem_of_getElem? listed)) ih

/-- From one moment of a session to the next, an entry stays or is written. -/
theorem lookup?_after_succ (fresh : start.cache = .absent)
    (spared : ∀ step ∈ steps, ∀ edit ∈ step.edits, edit.sparesCache = true) (k : Nat)
    (name : String) :
    (start.after (steps.take (k + 1))).cache.lookup? name =
        (start.after (steps.take k)).cache.lookup? name ∨
      ∃ step unit, steps[k]? = some step ∧
        (start.after (steps.take k)).Writes step name unit ∧
        (start.after (steps.take (k + 1))).cache.lookup? name = some (.saved unit) := by
  rw [after_take_succ]
  cases listed : steps[k]? with
  | none => exact Or.inl rfl
  | some step =>
      rcases lookup?_step (spared step (List.mem_of_getElem? listed))
        (clean_after fresh spared k) name with same | ⟨unit, writes⟩
      · exact Or.inl same
      · exact Or.inr ⟨step, unit, rfl, writes, writes.saved⟩

/-- A saved entry is there for the rest of the session. -/
theorem lookup?_after_of_le (fresh : start.cache = .absent)
    (spared : ∀ step ∈ steps, ∀ edit ∈ step.edits, edit.sparesCache = true) {k l : Nat}
    (later : k ≤ l) {name : String} {unit : CompilationUnit}
    (held : (start.after (steps.take k)).cache.lookup? name = some (.saved unit)) :
    (start.after (steps.take l)).cache.lookup? name = some (.saved unit) := by
  induction later with
  | refl => exact held
  | @step l _ ih =>
      rcases lookup?_after_succ fresh spared l name with same | ⟨_, _, _, writes, _⟩
      · exact same.trans ih
      · have missing := writes.missing
        rw [ih] at missing
        cases missing

/-- A saved entry was written by one of the steps before. -/
theorem exists_writes_of_lookup? (fresh : start.cache = .absent)
    (spared : ∀ step ∈ steps, ∀ edit ∈ step.edits, edit.sparesCache = true) {k : Nat}
    {name : String} {unit : CompilationUnit}
    (held : (start.after (steps.take k)).cache.lookup? name = some (.saved unit)) :
    ∃ j < k, ∃ step, steps[j]? = some step ∧
      (start.after (steps.take j)).Writes step name unit := by
  induction k with
  | zero =>
      change start.cache.lookup? name = _ at held
      rw [fresh] at held
      cases held
  | succ k ih =>
      rcases lookup?_after_succ fresh spared k name with
        same | ⟨step, other, listed, writes, saved⟩
      · rcases ih (same.symm.trans held) with ⟨j, earlier, written⟩
        exact ⟨j, Nat.lt_succ_of_lt earlier, written⟩
      · rw [held] at saved
        cases saved
        exact ⟨k, Nat.lt_succ_self k, step, listed, writes⟩

/-- An entry that is in the cache before step number `k` of a session: where it comes
from, that it stays, and what it means for the gatherings to come. -/
structure Permanent (start : Workspace) (steps : List Step) (k : Nat) (name : String)
    (unit : CompilationUnit) : Prop where
  written : ∃ j < k, ∃ step, steps[j]? = some step ∧
    (start.after (steps.take j)).Writes step name unit
  kept : ∀ l, k ≤ l →
    (start.after (steps.take l)).cache.lookup? name = some (.saved unit)
  served : ∀ l, k ≤ l → ∀ step files units, steps[l]? = some step →
    ((start.after (steps.take l)).edited step).gatheredBy? step.command = some files →
    (gather ((start.after (steps.take l)).edited step).sources files
      ((start.after (steps.take l)).edited step).cache).units = .ok units →
    ∀ (position : Nat) (file : String), files[position]? = some file →
      Cache.entryName file = name → units[position]? = some unit

theorem permanent_of_lookup? (fresh : start.cache = .absent)
    (spared : ∀ step ∈ steps, ∀ edit ∈ step.edits, edit.sparesCache = true) {k : Nat}
    {name : String} {unit : CompilationUnit}
    (held : (start.after (steps.take k)).cache.lookup? name = some (.saved unit)) :
    Permanent start steps k name unit where
  written := exists_writes_of_lookup? fresh spared held
  kept _ later := lookup?_after_of_le fresh spared later held
  served := by
    intro l later step files units listed _ returned position file place named
    have present := lookup?_after_of_le fresh spared later held
    rw [edited_cache (spared step (List.mem_of_getElem? listed))] at returned
    rw [← named, ← Cache.lookup?_prepare] at present
    exact (Cache.obtains_of_gather returned).serves present place

end Workspace

/-- In a session that starts without a cache, and in which only commands write to it,
the cache is at every moment absent or a directory of saved units.  Each entry was the
source of a file gathered by the step that wrote it.  No later step changes it, and
every later gathering that returns is served its unit for all files of that name. -/
theorem session_writes_entries_once {start : Workspace} (fresh : start.cache = .absent)
    {steps : List Step}
    (spared : ∀ step ∈ steps, ∀ edit ∈ step.edits, edit.sparesCache = true) (k : Nat) :
    (start.after (steps.take k)).cache = .absent ∨
      ∃ entries, (start.after (steps.take k)).cache = .directory entries ∧
        ∀ (name : String) (entry : Entry), entries[name]? = some entry →
          ∃ unit, entry = .saved unit ∧ start.Permanent steps k name unit := by
  have clean := Workspace.clean_after fresh spared k
  cases found : (start.after (steps.take k)).cache with
  | absent => exact Or.inl rfl
  | plainFile =>
      rw [found] at clean
      cases clean
  | directory entries =>
      rw [found] at clean
      refine Or.inr ⟨entries, rfl, ?_⟩
      intro name entry held
      rcases clean name entry held with ⟨short, unit, rfl⟩
      refine ⟨unit, rfl, Workspace.permanent_of_lookup? fresh spared ?_⟩
      rw [found, Cache.lookup?, if_pos short]
      exact held

/-- A source is changed after it was gathered, a detection fails for want of another
one, and then the first one is gathered again, with a namesake that does not exist. -/
def changedSource : List Step :=
  [⟨[.source "a/x.c" (some { id := some "old" })], .gather ["a/x.c"]⟩,
    ⟨[.source "a/x.c" (some { id := some "new" }), .binary "a.elf" (some {})],
      .detect (fun _ => 1) ["detect", "a.elf", "y.c"]⟩,
    ⟨[], .gather ["b/x.c", "a/x.c"]⟩]

/-- The last step is served the unit that the first one saved. -/
theorem session_writes_entries_once_changedSource :
    ({} : Workspace).cache = .absent ∧
    (∀ step ∈ changedSource, ∀ edit ∈ step.edits, edit.sparesCache = true) ∧
    ({} : Workspace).Permanent changedSource 1 "x.c_cache" { id := some "old" } ∧
    (gather (({} : Workspace).after (changedSource.take 2)).sources ["b/x.c", "a/x.c"]
      (({} : Workspace).after (changedSource.take 2)).cache).units =
      .ok [{ id := some "old" }, { id := some "old" }] := by
  have fresh : ({} : Workspace).cache = .absent := rfl
  have spared : ∀ step ∈ changedSource, ∀ edit ∈ step.edits, edit.sparesCache = true := by
    simp [changedSource, Edit.sparesCache]
  have first : (({} : Workspace).after (changedSource.take 1)).cache = .directory
      ((∅ : Std.ExtTreeMap String Entry).insert "x.c_cache" (.saved { id := some "old" })) := by
    decide +kernel
  rcases session_writes_entries_once fresh spared 1 with absent | ⟨entries, found, permanent⟩
  · rw [first] at absent
    cases absent
  · rw [first] at found
    cases found
    rcases permanent "x.c_cache" _ rfl with ⟨unit, same, lasting⟩
    cases same
    exact ⟨fresh, spared, lasting, by decide +kernel⟩

end Deadwood
