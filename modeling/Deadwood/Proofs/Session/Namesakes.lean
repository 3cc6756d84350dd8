import Mathlib.Data.List.Induction
import Deadwood.Proofs.Gathering.Obstruction
import Deadwood.Session

namespace Deadwood

/-!
# Whose unit a file is served

Entries of the cache are named after the last part of a path, so all files of one
name share an entry, whatever their directories.  Here this is followed through
sessions that start without a cache and gather files from sources that do not
change.  The calls of such a session leave the cache that a single gathering of all
files obtained so far would leave.  So the rule by which a gathering serves its files
holds for the whole session: the first file of a name whose unit is obtained is
parsed for all of them.

A gathering is therefore as good as one without a cache exactly if each of its
files has the unit of its first namesake.  This is the case if files of one name
have one unit, and it fails for two files of one name with different units.
-/

namespace Cache

/-! ## The files obtained -/

/-- Whether a file can be parsed and its unit saved, as long as nothing is in the
place of its entry. -/
def storable (sources : Sources) (file : String) : Bool :=
  sources[file]?.any (fun unit => unit.savable) &&
    decide ((entryName file).utf8ByteSize ≤ longestName)

theorem lookup?_empty (name : String) : lookup? (.directory ∅) name = none := by
  simp [lookup?]

theorem storable_iff_not_obstructed {sources : Sources} {file : String} :
    storable sources file = true ↔ ¬ Obstructed sources (.directory ∅) file := by
  rw [storable, Bool.and_eq_true, Option.any_eq_true, decide_eq_true_eq]
  constructor
  · rintro ⟨⟨unit, parsed, savable⟩, short⟩
    have saved := save?_isSome_iff.mpr
      ⟨⟨∅, rfl⟩, savable, short, by rw [lookup?_empty]; exact nofun⟩
    rcases Option.isSome_iff_exists.mp saved with ⟨next, success⟩
    exact not_obstructed_of_save? parsed success
  · intro clear
    cases parsed : sources[file]? with
    | none => exact absurd (.sourceless parsed) clear
    | some unit =>
        refine ⟨⟨unit, rfl, ?_⟩, Nat.le_of_not_lt fun long => clear (.overlong long)⟩
        exact Bool.of_not_eq_false fun refused => clear (.unsavable parsed refused)

/-- The files obtained up to now, after gathering some more.  A file is obtained if
a namesake was before, or if it is storable itself.  The first file that is neither
ends the gathering. -/
def obtained (sources : Sources) (history : List String) : List String → List String
  | [] => history
  | file :: files =>
      if (firstNamesake? history file).isSome || storable sources file then
        obtained sources (history ++ [file]) files
      else
        history

/-- The files obtained by some gatherings, one after the other. -/
def obtainedBy (sources : Sources) (calls : List (List String)) : List String :=
  calls.foldl (obtained sources) []

theorem exists_obtained_eq_append (sources : Sources) (history files : List String) :
    ∃ later, obtained sources history files = history ++ later ∧ later <+: files := by
  induction files generalizing history with
  | nil => exact ⟨[], by rw [obtained, List.append_nil], List.nil_prefix⟩
  | cons file files ih =>
      rw [obtained]
      split
      · rcases ih (history ++ [file]) with ⟨later, grown, earlier⟩
        refine ⟨file :: later, ?_, (List.prefix_cons_inj file).mpr earlier⟩
        rw [grown, List.append_assoc, List.singleton_append]
      · exact ⟨[], (List.append_nil _).symm, List.nil_prefix⟩

theorem obtainedBy_take_succ (sources : Sources) {calls : List (List String)} {k : Nat}
    {files : List String} (listed : calls[k]? = some files) :
    obtainedBy sources (calls.take (k + 1)) =
      obtained sources (obtainedBy sources (calls.take k)) files := by
  rw [obtainedBy, List.take_add_one, listed, Option.toList_some, List.foldl_append]
  rfl

/-- Every file that was obtained was listed in one of the calls. -/
theorem mem_flatten_of_mem_obtainedBy {sources : Sources} (calls : List (List String))
    {file : String} (member : file ∈ obtainedBy sources calls) : file ∈ calls.flatten := by
  -- The calls are taken from the end, where the history only grows.
  induction calls using List.reverseRecOn with
  | nil => cases member
  | append_singleton calls files ih =>
      rw [obtainedBy, List.foldl_append] at member
      rcases exists_obtained_eq_append sources (obtainedBy sources calls) files with
        ⟨later, grown, earlier⟩
      change file ∈ obtained sources (obtainedBy sources calls) files at member
      rw [grown, List.mem_append] at member
      rw [List.flatten_append, List.flatten_singleton, List.mem_append]
      rcases member with before | new
      · exact Or.inl (ih before)
      · exact Or.inr (earlier.subset new)

/-! ## The cache of a session -/

/-- The cache is the one that these files leave, obtained into an empty directory. -/
def LeftBy (sources : Sources) (history : List String) (cache : Cache) : Prop :=
  ∃ units, Obtains sources (.directory ∅) history units cache

variable {sources : Sources} {history files : List String} {cache next : Cache} {file : String}
  {units : List CompilationUnit} {result : Except GatherFault CompilationUnit}

theorem leftBy_nil (sources : Sources) : LeftBy sources [] (.directory ∅) :=
  ⟨[], .nil⟩

theorem LeftBy.append (left : LeftBy sources history cache)
    (obtains : Obtains sources cache files units next) :
    LeftBy sources (history ++ files) next := by
  rcases left with ⟨before, earlier⟩
  exact ⟨before ++ units, earlier.append obtains⟩

theorem LeftBy.prepare_eq (left : LeftBy sources history cache) : cache.prepare = cache := by
  rcases left with ⟨before, earlier⟩
  exact earlier.prepare_eq rfl

/-- From such a cache files are served as if all that came before were listed with them. -/
theorem LeftBy.served?_eq (left : LeftBy sources history cache) (files : List String) :
    served? sources files cache = inherited? sources (history ++ files) := by
  rcases left with ⟨before, earlier⟩
  rw [earlier.served?_eq]
  funext file
  apply served?_of_missed
  intro unit
  rw [lookup?_empty]
  exact nofun

/-- A file is obtained from such a cache if it has a namesake there, or else if it is
storable. -/
theorem LeftBy.exists_unit_iff (left : LeftBy sources history cache)
    (fetches : Fetches sources cache file result next) :
    (∃ unit, result = .ok unit) ↔
      ((firstNamesake? history file).isSome || storable sources file) = true := by
  rcases left with ⟨before, earlier⟩
  cases found : firstNamesake? history file with
  | some first =>
      have named := firstNamesake?_isSome_iff.mp (Option.isSome_of_eq_some found)
      rcases earlier.exists_saved_of_namesake named with ⟨unit, held⟩
      refine iff_of_true ?_ rfl
      cases result with
      | ok unit => exact ⟨unit, rfl⟩
      | error fault => exact absurd held (fetches.missed_of_error.2 unit)
  | none =>
      -- For the first of its name, things are as they were in the empty directory.
      have begun : Obtains sources (prepare (.directory ∅)) history before cache := earlier
      rcases begun.unchanged_for_first found with ⟨same, obstructed⟩
      have missed : ∀ unit, cache.lookup? (entryName file) ≠ some (.saved unit) := by
        intro unit
        rw [same, lookup?_empty]
        exact nofun
      rw [Option.isSome_none, Bool.false_or, storable_iff_not_obstructed, ← obstructed]
      exact fetches.exists_unit_iff (earlier.prepare_eq rfl) missed

/-! ## Gathering -/

/-- Files that are obtained one after the other are counted as obtained. -/
theorem LeftBy.obtained_append (left : LeftBy sources history cache)
    (obtains : Obtains sources cache files units next) (more : List String) :
    obtained sources history (files ++ more) = obtained sources (history ++ files) more := by
  induction obtains generalizing history with
  | nil => rw [List.nil_append, List.append_nil]
  | cons fetched _ ih =>
      have possible := (left.exists_unit_iff fetched).mp ⟨_, rfl⟩
      have grown := left.append (.cons fetched .nil)
      rw [List.cons_append, obtained, if_pos possible, ih grown, List.append_assoc,
        List.singleton_append]

/-- Gathering adds the files it obtains to the history, whether it returns or not.  It
returns if it obtains all of them, and then with the units of the first namesakes. -/
theorem LeftBy.fetchAll (left : LeftBy sources history cache) (total position : Nat)
    (files : List String) :
    LeftBy sources (obtained sources history files)
      (cache.fetchAll sources total position files).cache ∧
    ((∃ units, (cache.fetchAll sources total position files).units = .ok units) ↔
      obtained sources history files = history ++ files) ∧
    ∀ units, (cache.fetchAll sources total position files).units = .ok units →
      units.map some = files.map (inherited? sources (obtained sources history files)) := by
  rcases fetchAll_cases sources total position files cache with
    ⟨units, returned, obtains⟩ | ⟨front, file, back, units, fault, rfl, failed, obtains, stopped⟩
  · have complete : obtained sources history files = history ++ files := by
      have whole := left.obtained_append obtains []
      rw [List.append_nil] at whole
      exact whole
    rw [complete]
    refine ⟨left.append obtains, iff_of_true ⟨units, returned⟩ rfl, ?_⟩
    intro others again
    rw [returned] at again
    cases again
    rw [obtains.units_eq, left.served?_eq]
  · have reached := left.append obtains
    have partly : obtained sources history (front ++ file :: back) = history ++ front := by
      rw [left.obtained_append obtains, obtained, if_neg]
      intro possible
      rcases (reached.exists_unit_iff stopped).mpr possible with ⟨unit, impossible⟩
      cases impossible
    rw [partly, failed]
    refine ⟨reached, iff_of_false nofun ?_, nofun⟩
    intro full
    have lengths := congrArg List.length full
    simp only [List.length_append, List.length_cons] at lengths
    omega

end Cache

/-! ## Sessions -/

/-- Gather some files, with no edit before. -/
def Step.gathering (files : List String) : Step where
  edits := []
  command := .gather files

namespace Workspace

/-- The workspace that is left after some steps. -/
def after (workspace : Workspace) (steps : List Step) : Workspace :=
  steps.foldl (fun current step => (current.step step).2) workspace

theorem session_getElem? (workspace : Workspace) (steps : List Step) (k : Nat) :
    (workspace.session steps)[k]? =
      steps[k]?.map fun step => (workspace.after (steps.take k)).step step := by
  induction steps generalizing workspace k with
  | nil => rfl
  | cons first steps ih =>
      cases k with
      | zero => rfl
      | succ k => exact ih (workspace.step first).2 k

/-- Gathering changes nothing but the cache, and the cache is at any time the one that
the files obtained so far have left. -/
theorem after_gatherings (calls : List (List String)) {workspace : Workspace}
    {history : List String}
    (start : Cache.LeftBy workspace.sources history workspace.cache.prepare) :
    (workspace.after (calls.map Step.gathering)).sources = workspace.sources ∧
    Cache.LeftBy workspace.sources (calls.foldl (Cache.obtained workspace.sources) history)
      (workspace.after (calls.map Step.gathering)).cache.prepare := by
  induction calls generalizing workspace history with
  | nil => exact ⟨rfl, start⟩
  | cons files calls ih =>
      have gathered := (start.fetchAll files.length 1 files).1
      have next : Cache.LeftBy (workspace.step (.gathering files)).2.sources
          (Cache.obtained workspace.sources history files)
          (workspace.step (.gathering files)).2.cache.prepare := by
        change Cache.LeftBy workspace.sources _
          (gather workspace.sources files workspace.cache).cache.prepare
        rw [gather, gathered.prepare_eq]
        exact gathered
      exact ih next

/-- The call number `k` of a session is a gathering with the cache that the calls
before it have left. -/
theorem exists_session_getElem? {workspace : Workspace} (fresh : workspace.cache = .absent)
    {calls : List (List String)} {k : Nat} {files : List String}
    (listed : calls[k]? = some files) :
    ∃ cache left, Cache.LeftBy workspace.sources
        (Cache.obtainedBy workspace.sources (calls.take k)) cache ∧
      (workspace.session (calls.map Step.gathering))[k]? =
        some (.gathered (cache.fetchAll workspace.sources files.length 1 files), left) := by
  have start : Cache.LeftBy workspace.sources [] workspace.cache.prepare := by
    rw [fresh]
    exact Cache.leftBy_nil workspace.sources
  rcases after_gatherings (calls.take k) start with ⟨same, reached⟩
  have served : ∃ left, (workspace.after ((calls.take k).map Step.gathering)).step
      (.gathering files) = (.gathered (gather
        (workspace.after ((calls.take k).map Step.gathering)).sources files
        (workspace.after ((calls.take k).map Step.gathering)).cache), left) :=
    ⟨_, rfl⟩
  rcases served with ⟨left, served⟩
  refine ⟨_, left, reached, ?_⟩
  rw [session_getElem?, List.getElem?_map, listed, ← List.map_take, Option.map_some,
    Option.map_some, served, same]
  rfl

end Workspace

/-- Whose units a session serves that starts without a cache and gathers files from
sources that do not change.  A call returns exactly if it obtains all its files.
Each of them is then served the unit of its first namesake that was obtained, in
this call or in an earlier one.  So the call serves every file its own unit exactly
if this is also the unit of the first namesake, and in particular if the listed
files of one name have one unit. -/
theorem session_serves_first_namesake {workspace : Workspace} (fresh : workspace.cache = .absent)
    {calls : List (List String)} {k : Nat} {files : List String}
    (listed : calls[k]? = some files) :
    ∃ gathered left,
      (workspace.session (calls.map Step.gathering))[k]? = some (.gathered gathered, left) ∧
      ((∃ units, gathered.units = .ok units) ↔
        Cache.obtainedBy workspace.sources (calls.take (k + 1)) =
          Cache.obtainedBy workspace.sources (calls.take k) ++ files) ∧
      ∀ units, gathered.units = .ok units →
        units.map some = files.map (Cache.inherited? workspace.sources
          (Cache.obtainedBy workspace.sources (calls.take (k + 1)))) ∧
        (units.map some = files.map (fun file => workspace.sources[file]?) ↔
          ∀ file ∈ files, Cache.inherited? workspace.sources
            (Cache.obtainedBy workspace.sources (calls.take (k + 1))) file =
              workspace.sources[file]?) ∧
        ((∀ file ∈ files, ∀ other ∈ (calls.take (k + 1)).flatten,
            Cache.basename other = Cache.basename file →
            workspace.sources[other]? = workspace.sources[file]?) →
          units.map some = files.map fun file => workspace.sources[file]?) := by
  rcases Workspace.exists_session_getElem? fresh listed with ⟨cache, left, reached, served⟩
  rcases reached.fetchAll files.length 1 files with ⟨_, complete, returns⟩
  rw [← Cache.obtainedBy_take_succ workspace.sources listed] at complete returns
  refine ⟨_, left, served, complete, ?_⟩
  intro units returned
  have attributed := returns units returned
  refine ⟨attributed, ?_, ?_⟩
  · rw [attributed]
    exact List.map_inj_left
  · intro agree
    rw [attributed]
    apply List.map_inj_left.mpr
    intro file member
    -- The file has an obtained namesake, because the call returned a unit for it.
    have image := List.mem_map_of_mem (f := Cache.inherited? workspace.sources
      (Cache.obtainedBy workspace.sources (calls.take (k + 1)))) member
    rw [← attributed] at image
    rcases List.mem_map.mp image with ⟨unit, _, inherits⟩
    rcases Option.bind_eq_some_iff.mp inherits.symm with ⟨first, found, parsed⟩
    rw [← inherits, ← parsed]
    apply agree file member first
    · exact Cache.mem_flatten_of_mem_obtainedBy _ (List.mem_of_find?_eq_some found)
    · exact Cache.basename_of_firstNamesake? found

/-- Two files of one name in different directories. -/
def twinFiles : Workspace where
  sources := ((∅ : Sources).insert "a/x.c" { id := some "a" }).insert "b/x.c" { id := some "b" }

/-- Both files of the second call are served what the first call left. -/
theorem session_serves_first_namesake_twinFiles :
    ∃ gathered left,
      (twinFiles.session (List.map Step.gathering [["b/x.c"], ["a/x.c", "b/x.c"]]))[1]? =
        some (.gathered gathered, left) ∧
      gathered.units = .ok [{ id := some "b" }, { id := some "b" }] ∧
      [some { id := some "b" }, some { id := some "b" }] =
        List.map (Cache.inherited? twinFiles.sources ["b/x.c", "a/x.c", "b/x.c"])
          ["a/x.c", "b/x.c"] := by
  have listed : [["b/x.c"], ["a/x.c", "b/x.c"]][1]? = some ["a/x.c", "b/x.c"] := rfl
  have fresh : twinFiles.cache = .absent := rfl
  rcases session_serves_first_namesake fresh listed with ⟨gathered, left, outcome, _, served⟩
  have returned : gathered.units = .ok [{ id := some "b" }, { id := some "b" }] := by
    cases outcome
    rfl
  exact ⟨gathered, left, outcome, returned, (served _ returned).1⟩

/-- Two files of one name are both served the unit of the first. -/
theorem session_serves_foreign_unit :
    twinFiles.cache = .absent ∧ ∃ gathered left units,
      (twinFiles.session [.gathering ["a/x.c", "b/x.c"]])[0]? = some (.gathered gathered, left) ∧
      gathered.units = .ok units ∧
      units.map some ≠ ["a/x.c", "b/x.c"].map fun file => twinFiles.sources[file]? :=
  ⟨rfl, _, _, [{ id := some "a" }, { id := some "a" }], rfl, rfl, by decide +kernel⟩

end Deadwood
