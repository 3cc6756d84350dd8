import Deadwood.Detection
import Deadwood.Proofs.Log.Views

namespace Deadwood

/-!
# How far a detection gets

A detection ends at the first of its stages that fails.  Whatever this stage is, the
report is as it was before the run, because writing it is the last thing that a run
does and the only thing it does to it.

The cache is different, since gathering changes it even if a later stage fails.  It
depends on one question only: whether the run gets as far as gathering.  If it does
not, then the cache is as before.  If it does, then the cache is the one that this
gathering leaves, and nothing after it matters.
-/

variable {limits : Pool.Limits} {arguments files : List String} {workspace : Workspace}
  {name : String} {target : Target} {units : List CompilationUnit} {fault : Fault}

/-! ## Stage by stage -/

theorem detectIn_of_uninspected
    (failed : (inspect workspace.binaries name).target = .error fault) :
    detectIn limits name files workspace =
      ⟨some fault, workspace.cache, workspace.report, (inspect workspace.binaries name).log⟩ := by
  simp only [detectIn, failed]

theorem detectIn_of_ungathered {reason : GatherFault}
    (inspected : (inspect workspace.binaries name).target = .ok target)
    (failed : (gather workspace.sources files workspace.cache).units = .error reason) :
    detectIn limits name files workspace =
      ⟨some (.gathering reason), (gather workspace.sources files workspace.cache).cache,
        workspace.report, (inspect workspace.binaries name).log ++
          (gather workspace.sources files workspace.cache).log⟩ := by
  simp only [detectIn, inspected, failed]

theorem detectIn_of_unsurveyed {stop : Stop}
    (inspected : (inspect workspace.binaries name).target = .ok target)
    (gathered : (gather workspace.sources files workspace.cache).units = .ok units)
    (stopped : (survey target.functions limits ∅ units).stop = some stop) :
    detectIn limits name files workspace =
      ⟨some (.survey stop), (gather workspace.sources files workspace.cache).cache,
        workspace.report, (inspect workspace.binaries name).log ++
          (gather workspace.sources files workspace.cache).log ++
          (survey target.functions limits ∅ units).log⟩ := by
  simp only [detectIn, inspected, gathered, stopped]

theorem detectIn_of_surveyed
    (inspected : (inspect workspace.binaries name).target = .ok target)
    (gathered : (gather workspace.sources files workspace.cache).units = .ok units)
    (surveyed : (survey target.functions limits ∅ units).stop = none) :
    detectIn limits name files workspace =
      ⟨(conclude name target (survey target.functions limits ∅ units).used
          workspace.report).fault,
        (gather workspace.sources files workspace.cache).cache,
        (conclude name target (survey target.functions limits ∅ units).used
          workspace.report).report,
        (inspect workspace.binaries name).log ++
          (gather workspace.sources files workspace.cache).log ++
          (survey target.functions limits ∅ units).log ++
          (conclude name target (survey target.functions limits ∅ units).used
            workspace.report).log⟩ := by
  simp only [detectIn, inspected, gathered, surveyed]

theorem conclude_report_of_fault {used : NameSet} {report : Report}
    (faulty : (conclude name target used report).fault = some fault) :
    (conclude name target used report).report = report := by
  unfold conclude at faulty ⊢
  cases listed : target.binary.listing? with
  | none => rfl
  | some listing =>
      simp only [listed] at faulty ⊢
      cases report with
      | absent => cases faulty
      | text content => cases faulty
      | directory => rfl

/-! ## Whether the files are reached -/

/-- The files that a run gathers, provided that it gets that far. -/
def gatheredFiles? (binaries : Binaries) : List String → Option (List String)
  | _ :: name :: file :: files =>
      match (inspect binaries name).target with
      | .error _ => none
      | .ok _ => some (file :: files)
  | _ => none

theorem inspect_log_sparesFiles (binaries : Binaries) (name : String) :
    (inspect binaries name).log.SparesFiles := by
  unfold inspect
  cases binaries.readable? name with
  | none => simp [Event.handlesFile]
  | some binary =>
      cases table : binary.symbols? with
      | none => simp [table, Event.handlesFile]
      | some symbols =>
          cases listed : binary.listing? with
          | none => simp [table, listed, Event.handlesFile]
          | some listing => simp [table, listed, Event.handlesFile]

/-- A fetch loads an entry or parses a file. -/
theorem Cache.fetch_log_not_sparesFiles (sources : Sources) (position total : Nat)
    (file : String) (cache : Cache) :
    ¬ (cache.fetch sources position total file).log.SparesFiles := by
  have parses : ¬ (cache.renew sources position total file).log.SparesFiles := by
    unfold renew
    cases sources[file]? with
    | none => simp [Event.handlesFile]
    | some unit =>
        cases saving : cache.save? (entryName file) unit with
        | none => simp [saving, Event.handlesFile]
        | some saved => simp [saving, Event.handlesFile]
  unfold fetch
  cases cache.lookup? (entryName file) with
  | none => exact parses
  | some entry => cases entry <;> simp [Event.handlesFile]

theorem gather_log_not_sparesFiles (sources : Sources) (file : String) (files : List String)
    (cache : Cache) : ¬ (gather sources (file :: files) cache).log.SparesFiles := by
  have fetched := Cache.fetch_log_not_sparesFiles sources 1 (file :: files).length file
    cache.prepare
  intro spared
  apply fetched
  rw [gather, Cache.fetchAll] at spared
  split at spared
  · exact spared
  · exact (Log.sparesFiles_append.mp spared).1

/-- A run that does not get as far as gathering fails and changes nothing. -/
theorem detect_of_unreached (limits : Pool.Limits)
    (unreached : gatheredFiles? workspace.binaries arguments = none) :
    ∃ fault log, log.SparesFiles ∧ detect limits arguments workspace =
      ⟨some fault, workspace.cache, workspace.report, log⟩ := by
  match arguments with
  | [] => exact ⟨.noProgramName, [], Log.sparesFiles_nil, rfl⟩
  | [program] => exact ⟨.usage, _, Log.sparesFiles_announce _, rfl⟩
  | [program, name] => exact ⟨.usage, _, Log.sparesFiles_announce _, rfl⟩
  | program :: name :: file :: files =>
      rw [gatheredFiles?] at unreached
      split at unreached
      · rename_i fault failed
        exact ⟨fault, _, inspect_log_sparesFiles workspace.binaries name,
          detectIn_of_uninspected failed⟩
      · cases unreached

/-- From the gathering on, the cache is the one that the gathering leaves.  The report
stays as it is if there is a fault. -/
theorem detectIn_of_inspected (limits : Pool.Limits) (files : List String)
    (inspected : (inspect workspace.binaries name).target = .ok target) :
    (detectIn limits name files workspace).cache =
      (gather workspace.sources files workspace.cache).cache ∧
    (∃ before after : Log, before.SparesFiles ∧ (detectIn limits name files workspace).log =
      before ++ (gather workspace.sources files workspace.cache).log ++ after) ∧
    ∀ fault, (detectIn limits name files workspace).fault = some fault →
      (detectIn limits name files workspace).report = workspace.report := by
  have spared := inspect_log_sparesFiles workspace.binaries name
  cases gathered : (gather workspace.sources files workspace.cache).units with
  | error reason =>
      rw [detectIn_of_ungathered inspected gathered]
      exact ⟨rfl, ⟨_, [], spared, (List.append_nil _).symm⟩, fun _ _ => rfl⟩
  | ok units =>
      cases surveyed : (survey target.functions limits ∅ units).stop with
      | some stop =>
          rw [detectIn_of_unsurveyed inspected gathered surveyed]
          exact ⟨rfl, ⟨_, _, spared, rfl⟩, fun _ _ => rfl⟩
      | none =>
          rw [detectIn_of_surveyed inspected gathered surveyed]
          refine ⟨rfl, ⟨_, _, spared, List.append_assoc _ _ _⟩, ?_⟩
          intro fault faulty
          exact conclude_report_of_fault faulty

theorem exists_of_gatheredFiles? {binaries : Binaries}
    (reached : gatheredFiles? binaries arguments = some files) :
    ∃ program name file rest target, arguments = program :: name :: file :: rest ∧
      files = file :: rest ∧ (inspect binaries name).target = .ok target := by
  match arguments with
  | [] => cases reached
  | [program] => cases reached
  | [program, name] => cases reached
  | program :: name :: file :: rest =>
      rw [gatheredFiles?] at reached
      split at reached
      · cases reached
      · rename_i target inspected
        exact ⟨program, name, file, rest, target, rfl, (Option.some.inj reached).symm, inspected⟩

/-- A run touches the files exactly if it gets as far as gathering. -/
theorem detect_log_sparesFiles_iff (limits : Pool.Limits) (arguments : List String)
    (workspace : Workspace) :
    (detect limits arguments workspace).log.SparesFiles ↔
      gatheredFiles? workspace.binaries arguments = none := by
  cases reached : gatheredFiles? workspace.binaries arguments with
  | none =>
      rcases detect_of_unreached limits reached with ⟨fault, log, spared, ended⟩
      rw [ended]
      exact ⟨fun _ => rfl, fun _ => spared⟩
  | some files =>
      rcases exists_of_gatheredFiles? reached with
        ⟨program, name, file, rest, target, rfl, rfl, inspected⟩
      rcases detectIn_of_inspected limits (file :: rest) inspected with
        ⟨_, ⟨before, after, _, log⟩, _⟩
      refine ⟨?_, nofun⟩
      intro spared
      change (detectIn limits name (file :: rest) workspace).log.SparesFiles at spared
      rw [log, Log.sparesFiles_append, Log.sparesFiles_append] at spared
      exact absurd spared.1.2 (gather_log_not_sparesFiles _ _ _ _)

/-- What becomes of the cache depends on the gathering alone. -/
theorem detect_cache (limits : Pool.Limits) (arguments : List String) (workspace : Workspace) :
    (detect limits arguments workspace).cache =
      match gatheredFiles? workspace.binaries arguments with
      | none => workspace.cache
      | some files => (gather workspace.sources files workspace.cache).cache := by
  cases reached : gatheredFiles? workspace.binaries arguments with
  | none =>
      rcases detect_of_unreached limits reached with ⟨fault, log, _, ended⟩
      rw [ended]
  | some files =>
      rcases exists_of_gatheredFiles? reached with
        ⟨program, name, file, rest, target, rfl, rfl, inspected⟩
      exact (detectIn_of_inspected limits (file :: rest) inspected).1

/-- A run with a fault leaves the report as it was.  If it did not get as far as
gathering, which shows in its log, then it leaves the cache as it was, too.  If it did,
then it leaves the cache of this gathering, whether it failed there or later. -/
theorem faulty_detect_spares_report (limits : Pool.Limits) (arguments : List String)
    (workspace : Workspace) {fault : Fault}
    (faulty : (detect limits arguments workspace).fault = some fault) :
    (detect limits arguments workspace).report = workspace.report ∧
    ((detect limits arguments workspace).log.SparesFiles ↔
      gatheredFiles? workspace.binaries arguments = none) ∧
    (gatheredFiles? workspace.binaries arguments = none →
      (detect limits arguments workspace).cache = workspace.cache) ∧
    ∀ files, gatheredFiles? workspace.binaries arguments = some files →
      files = arguments.drop 2 ∧
      (∃ before after : Log, before.SparesFiles ∧ (detect limits arguments workspace).log =
        before ++ (gather workspace.sources files workspace.cache).log ++ after) ∧
      (detect limits arguments workspace).cache =
        (gather workspace.sources files workspace.cache).cache := by
  refine ⟨?_, detect_log_sparesFiles_iff limits arguments workspace, ?_, ?_⟩
  · cases reached : gatheredFiles? workspace.binaries arguments with
    | none =>
        rcases detect_of_unreached limits reached with ⟨reason, log, _, ended⟩
        rw [ended]
    | some files =>
        rcases exists_of_gatheredFiles? reached with
          ⟨program, name, file, rest, target, rfl, rfl, inspected⟩
        exact (detectIn_of_inspected limits (file :: rest) inspected).2.2 fault faulty
  · intro unreached
    rw [detect_cache, unreached]
  · intro files reached
    rcases exists_of_gatheredFiles? reached with
      ⟨program, name, file, rest, target, rfl, rfl, inspected⟩
    refine ⟨rfl, (detectIn_of_inspected limits (file :: rest) inspected).2.1, ?_⟩
    rw [detect_cache, reached]

/-- A report from an earlier run, and a source file whose worker fails. -/
def failingWorker : Workspace where
  sources := (∅ : Sources).insert "src/x.c" { exitCode := 3 }
  binaries := (∅ : Binaries).insert "a.elf" {}
  report := .text "f"

/-- The survey fails after the file has been parsed and saved. -/
theorem faulty_detect_spares_report_failingWorker :
    (detect (fun _ => 1) ["detect", "a.elf", "src/x.c"] failingWorker).fault =
      some (.survey .workerFailed) ∧
    (detect (fun _ => 1) ["detect", "a.elf", "src/x.c"] failingWorker).report = .text "f" ∧
    (detect (fun _ => 1) ["detect", "a.elf", "src/x.c"] failingWorker).cache =
      .directory ((∅ : Std.ExtTreeMap String Entry).insert "x.c_cache"
        (.saved { exitCode := 3 })) := by
  have faulty : (detect (fun _ => 1) ["detect", "a.elf", "src/x.c"] failingWorker).fault =
      some (.survey .workerFailed) := by decide +kernel
  have reached : gatheredFiles? failingWorker.binaries ["detect", "a.elf", "src/x.c"] =
      some ["src/x.c"] := by decide +kernel
  have spared := faulty_detect_spares_report (fun _ => 1) ["detect", "a.elf", "src/x.c"]
    failingWorker faulty
  refine ⟨faulty, spared.1, (spared.2.2.2 _ reached).2.2.trans ?_⟩
  decide +kernel

end Deadwood
