import Mathlib.Order.Bounds.Basic
import Deadwood.Proofs.Survey.Bookkeeping
import Deadwood.Proofs.Survey.Delivery

namespace Deadwood

/-!
# Surveys under a constant limit

If the limit is the same for every unit, all endings of a survey can be read off
two numbers.  One is the number of unreadable units, whose workers take up places
and send nothing; as soon as they are as many as there are places, the next unit
finds a full pool without results.  The other is the position of the first failed
worker among those that are joined.  The survey ends at this worker, at the first
worker for which no result is left, or not at all, whichever comes first.

Which workers are left to be joined depends on when they end, and nothing is
assumed about it.
-/

namespace Pool

/-- The position of the first failed worker, or the number of workers if none has
failed. -/
def firstFailed (workers : List Worker) : Nat :=
  workers.findIdx fun worker => worker.exitCode ≠ 0

theorem firstFailed_le (workers : List Worker) : firstFailed workers ≤ workers.length :=
  List.findIdx_le_length

theorem firstFailed_eq_length_iff {workers : List Worker} :
    firstFailed workers = workers.length ↔ ∀ worker ∈ workers, worker.exitCode = 0 := by
  rw [firstFailed, List.findIdx_eq_length]
  simp only [decide_eq_false_iff_not, not_not]

theorem firstFailed_append {front : List Worker} {worker : Worker} (back : List Worker)
    (proper : ∀ other ∈ front, other.exitCode = 0) (failed : worker.exitCode ≠ 0) :
    firstFailed (front ++ worker :: back) = front.length := by
  have passed : firstFailed front = front.length := firstFailed_eq_length_iff.mpr proper
  have here : firstFailed (worker :: back) = 0 := by
    simp [firstFailed, List.findIdx_cons, failed]
  rw [firstFailed] at passed here ⊢
  rw [List.findIdx_append, passed, if_neg (Nat.lt_irrefl _), here, Nat.zero_add]

/-- A list of workers is divided by the first failed one. -/
theorem exists_first_failed {workers : List Worker}
    (failed : firstFailed workers < workers.length) :
    ∃ front worker back, workers = front ++ worker :: back ∧
      (∀ other ∈ front, other.exitCode = 0) ∧ worker.exitCode ≠ 0 := by
  refine ⟨workers.take (firstFailed workers), workers[firstFailed workers],
    workers.drop (firstFailed workers + 1), ?_, ?_, ?_⟩
  · rw [← List.drop_eq_getElem_cons failed, List.take_append_drop]
  · intro other member
    rcases List.mem_take_iff_getElem.mp member with ⟨j, earlier, same⟩
    have passed := List.not_of_lt_findIdx (Nat.lt_of_lt_of_le earlier (Nat.min_le_left _ _))
    rw [← same]
    simpa using passed
  · exact of_decide_eq_true (List.findIdx_getElem (w := failed))

end Pool

variable {functions before : NameSet} {limits : Pool.Limits} {units : List CompilationUnit}
  {limit : Nat} {pool : Pool}

/-! ## Joining the workers that are left -/

/-- The number of waiting results in the terms of the accounts. -/
theorem Pool.length_queue_add_silent
    (dispatched : Pool.dispatch functions limits before units = .ok pool) :
    pool.queue.length + Pool.silent functions units = Pool.occupancy limits units.length ∧
      pool.workers.length = Pool.occupancy limits units.length := by
  have reached := (Pool.comingUp_length functions limits before units).trans dispatched
  have size := Pool.length_workers_of_comingUp (Nat.le_refl _) reached
  have matched := Pool.length_queue_add_unreadable reached
  rw [List.take_length, ← Pool.silent_eq_unreadable functions, size] at matched
  exact ⟨matched, size⟩

/-- The first failed worker is reported if there is a result for each worker before
it. -/
theorem survey_reports_first_failed_iff
    (dispatched : Pool.dispatch functions limits before units = .ok pool) :
    (survey functions limits before units).stop = some .workerFailed ↔
      Pool.firstFailed pool.workers ≤ pool.queue.length ∧
      Pool.firstFailed pool.workers < pool.workers.length := by
  rcases Pool.length_queue_add_silent dispatched with ⟨matched, size⟩
  rw [survey_stop_eq_workerFailed_iff, (survey_of_dispatch dispatched).2]
  constructor
  · intro reported
    rcases reported with ⟨_, front, worker, back, split, proper, failed, enough⟩
    have position := Pool.firstFailed_append back proper failed
    rw [← split] at position
    have longer : front.length < pool.workers.length := by
      rw [split, List.length_append, List.length_cons]
      omega
    omega
  · intro early
    rcases Pool.exists_first_failed early.2 with ⟨front, worker, back, split, proper, failed⟩
    have position := Pool.firstFailed_append back proper failed
    rw [← split] at position
    exact ⟨(Pool.sustained_of_foldlM_accept dispatched).1, front, worker, back, split, proper,
      failed, by omega⟩

/-- The survey completes if there is a result for each worker and none has failed. -/
theorem survey_completes_iff_of_dispatch
    (dispatched : Pool.dispatch functions limits before units = .ok pool) :
    (survey functions limits before units).stop = none ↔
      Pool.firstFailed pool.workers = pool.queue.length ∧
      pool.queue.length = pool.workers.length := by
  rcases Pool.length_queue_add_silent dispatched with ⟨matched, size⟩
  rw [survey_stop_eq_none_iff, (survey_of_dispatch dispatched).2,
    ← Pool.firstFailed_eq_length_iff]
  constructor
  · intro proper
    omega
  · intro enough
    exact ⟨(Pool.sustained_of_foldlM_accept dispatched).1, by omega, by omega⟩

/-- The survey gets stuck if the results run out before the first failed worker. -/
theorem survey_starves_iff_of_dispatch
    (dispatched : Pool.dispatch functions limits before units = .ok pool) :
    (survey functions limits before units).stop = some .starved ↔
      pool.queue.length < Pool.firstFailed pool.workers := by
  have failed := survey_reports_first_failed_iff dispatched
  have completed := survey_completes_iff_of_dispatch dispatched
  have bounded := Pool.firstFailed_le pool.workers
  rcases Pool.length_queue_add_silent dispatched with ⟨matched, size⟩
  -- The three conditions exclude each other, and there is no fourth ending.
  constructor
  · intro starved
    have unreported : ¬ (Pool.firstFailed pool.workers ≤ pool.queue.length ∧
        Pool.firstFailed pool.workers < pool.workers.length) := by
      rw [← failed, starved]
      exact nofun
    have incomplete : ¬ (Pool.firstFailed pool.workers = pool.queue.length ∧
        pool.queue.length = pool.workers.length) := by
      rw [← completed, starved]
      exact nofun
    omega
  · intro short
    rcases survey_stop_cases functions limits before units with ending | ending | ending
    · have enough := completed.mp ending
      omega
    · have early := failed.mp ending
      omega
    · exact ending

/-! ## Getting stuck at a unit -/

/-- There are as many unreadable units before the last one as the pool has places. -/
def Pool.Clogged (limit : Nat) (units : List CompilationUnit) : Prop :=
  1 ≤ units.length ∧ limit ≤ CompilationUnit.unreadable (units.take (units.length - 1))

theorem Pool.occupancy_const (limit k : Nat) :
    Pool.occupancy (fun _ => (limit : Int)) k = min k limit := by
  induction k with
  | zero => rw [Pool.occupancy, Nat.zero_min]
  | succ k ih =>
      rw [Pool.occupancy, ih]
      split <;> omega

theorem CompilationUnit.unreadable_take_le {j k : Nat} (units : List CompilationUnit)
    (earlier : j ≤ k) : unreadable (units.take j) ≤ unreadable (units.take k) := by
  apply List.Sublist.countP_le
  exact (List.take_prefix_take_left earlier).sublist

theorem CompilationUnit.unreadable_take_succ_le (units : List CompilationUnit) (k : Nat) :
    unreadable (units.take (k + 1)) ≤ unreadable (units.take k) + 1 := by
  rw [List.take_add_one, unreadable, List.countP_append]
  have last := List.countP_le_length (p := fun unit : CompilationUnit => decide ¬ unit.Readable)
    (l := units[k]?.toList)
  have single : units[k]?.toList.length ≤ 1 := by
    cases units[k]? <;> simp
  exact Nat.add_le_add_left (last.trans single) _

theorem CompilationUnit.unreadable_le_length (units : List CompilationUnit) :
    unreadable units ≤ units.length :=
  List.countP_le_length

theorem Pool.sustained_const_iff (functions : NameSet) (positive : 1 ≤ limit) :
    Pool.Sustained functions (fun _ => (limit : Int)) units ↔ ¬ Pool.Clogged limit units := by
  constructor
  · intro sustained clogged
    rcases clogged with ⟨nonempty, many⟩
    have few := CompilationUnit.unreadable_le_length (units.take (units.length - 1))
    rw [List.length_take] at few
    have full : (limit : Int) ≤ (min (units.length - 1) limit : Nat) := by omega
    have supply := sustained (units.length - 1) (by omega)
    rw [Pool.occupancy_const, Pool.silent_eq_unreadable] at supply
    exact absurd (supply full) (by omega)
  · intro free k within full
    -- The count is largest before the last unit, and even there it is below the limit.
    have fewer := CompilationUnit.unreadable_take_le units (Nat.le_sub_one_of_lt within)
    rw [Pool.occupancy_const] at full ⊢
    rw [Pool.silent_eq_unreadable]
    rw [Pool.Clogged] at free
    have filled : limit ≤ k := by
      change (limit : Int) ≤ _ at full
      omega
    omega

/-- Unreadable units are met one at a time, so there is a first moment at which they
are as many as the places. -/
theorem exists_isLeast_unreadable (positive : 1 ≤ limit) (clogged : Pool.Clogged limit units) :
    ∃ k < units.length, IsLeast {j | CompilationUnit.unreadable (units.take j) = limit} k := by
  have reached : ∃ k, limit ≤ CompilationUnit.unreadable (units.take k) := ⟨_, clogged.2⟩
  have earliest := Nat.find_min' reached clogged.2
  have nonempty := clogged.1
  refine ⟨Nat.find reached, by omega, ?_, ?_⟩
  · have many := Nat.find_spec reached
    cases first : Nat.find reached with
    | zero =>
        rw [first] at many
        have none : CompilationUnit.unreadable (units.take 0) = 0 := rfl
        omega
    | succ k =>
        have fewer := Nat.find_min reached (show k < Nat.find reached by omega)
        have single := CompilationUnit.unreadable_take_succ_le units k
        rw [first] at many
        change CompilationUnit.unreadable (units.take (k + 1)) = limit
        omega
  · intro j equal
    exact Nat.find_min' reached (Nat.le_of_eq (Eq.symm equal))

/-- A clogged pool gets stuck at the first unit before which as many units were
unreadable as it has places. -/
theorem survey_of_clogged (functions before : NameSet) {k : Nat} (positive : 1 ≤ limit)
    (within : k < units.length)
    (first : IsLeast {j | CompilationUnit.unreadable (units.take j) = limit} k) :
    ∃ halted,
      Pool.dispatch functions (fun _ => (limit : Int)) before units =
        .error ⟨.starved, halted⟩ ∧
      survey functions (fun _ => (limit : Int)) before units = ⟨halted, some .starved⟩ ∧
      halted.queue = [] ∧ halted.log.starts = List.range k := by
  have reached : CompilationUnit.unreadable (units.take k) = limit := first.1
  have few := CompilationUnit.unreadable_le_length (units.take k)
  rw [List.length_take] at few
  -- Unit `k` is the first to find the count at the limit, so no unit before it gets stuck.
  have earlier : Pool.Sustained functions (fun _ => (limit : Int)) (units.take k) := by
    apply (Pool.sustained_const_iff functions positive).mpr
    intro clogged
    rcases clogged with ⟨nonempty, many⟩
    rw [List.length_take, List.take_take] at many
    have fewer := CompilationUnit.unreadable_take_le units
      (show min (min k units.length - 1) k ≤ k from Nat.min_le_right _ _)
    have sooner : k ≤ min (min k units.length - 1) k := by
      apply first.2
      change CompilationUnit.unreadable _ = limit
      omega
    omega
  rcases Pool.exists_dispatch_starved_at before within earlier
    (by rw [Pool.occupancy_const]; omega)
    (by rw [Pool.occupancy_const, Pool.silent_eq_unreadable]; omega) with
    ⟨halted, stuck, started⟩
  have ended : survey functions (fun _ => (limit : Int)) before units =
      ⟨halted, some .starved⟩ := by
    rw [survey, stuck]
    rfl
  refine ⟨halted, stuck, ended, ?_, ?_⟩
  · have drained := survey_queue_of_starved (congrArg Survey.stop ended)
    rw [ended] at drained
    exact drained
  · rcases survey_chronicle functions (fun _ => (limit : Int)) before units with
      ⟨accepted, _, chronicle⟩
    rw [ended] at chronicle
    rw [← started, chronicle.started_eq]
    exact chronicle.starts_eq

/-! ## The endings -/

/-- How a survey under a constant limit ends.  A clogged pool gets stuck at the first
unit before which as many units were unreadable as there are places.  Otherwise all
workers are started, and those left to be joined fill the pool.  Then the survey
gets stuck if there are fewer results than workers before the first failed one, it
reports the first failed worker if there are enough of them, and it completes if
nobody was unreadable and nobody left has failed. -/
theorem survey_endings_of_constant_limit (functions before : NameSet) {limit : Nat}
    (positive : 1 ≤ limit) (units : List CompilationUnit) :
    (Pool.Clogged limit units →
      ∃ k < units.length,
        IsLeast {j | CompilationUnit.unreadable (units.take j) = limit} k ∧
        ∃ halted,
          Pool.dispatch functions (fun _ => (limit : Int)) before units =
            .error ⟨.starved, halted⟩ ∧
          survey functions (fun _ => (limit : Int)) before units = ⟨halted, some .starved⟩ ∧
          halted.queue = [] ∧ halted.log.starts = List.range k) ∧
    (¬ Pool.Clogged limit units →
      ∃ pool waiting,
        Pool.dispatch functions (fun _ => (limit : Int)) before units = .ok pool ∧
        pool.log.starts = List.range units.length ∧
        (pool.log.reaped ++ pool.workers.map Pool.Worker.number).Perm
          (List.range units.length) ∧
        (pool.workers.map Pool.Worker.badge).Sublist (Pool.badges functions units) ∧
        pool.workers.length = min units.length limit ∧
        waiting + CompilationUnit.unreadable units = min units.length limit ∧
        ((survey functions (fun _ => (limit : Int)) before units).stop = some .starved ↔
          waiting < Pool.firstFailed pool.workers) ∧
        ((survey functions (fun _ => (limit : Int)) before units).stop = some .workerFailed ↔
          Pool.firstFailed pool.workers ≤ waiting ∧
          Pool.firstFailed pool.workers < min units.length limit) ∧
        ((survey functions (fun _ => (limit : Int)) before units).stop = none ↔
          Pool.firstFailed pool.workers = waiting ∧ waiting = min units.length limit)) := by
  constructor
  · intro clogged
    rcases exists_isLeast_unreadable positive clogged with ⟨k, within, first⟩
    exact ⟨k, within, first, survey_of_clogged functions before positive within first⟩
  · intro free
    have sustained := (Pool.sustained_const_iff functions positive).mpr free
    rcases Pool.exists_dispatch_ok before units.length sustained with
      ⟨pool, taken, dispatched, ledger⟩
    have reached := (Pool.comingUp_length functions _ before units).trans dispatched
    have chronicle := Pool.chronicle_of_comingUp reached
    have matched := Pool.length_queue_add_unreadable reached
    have size := Pool.length_workers_of_comingUp (Nat.le_refl _) reached
    rw [List.take_length] at chronicle matched
    rw [Pool.occupancy_const] at size
    have failed := survey_reports_first_failed_iff dispatched
    have completed := survey_completes_iff_of_dispatch dispatched
    rw [size] at matched failed completed
    exact ⟨pool, pool.queue.length, dispatched, chronicle.starts_eq, chronicle.staff_perm,
      ledger.roster.badges_sublist, size, matched, survey_starves_iff_of_dispatch dispatched,
      failed, completed⟩

/-- One place is clogged by the unreadable second unit.  With two places its worker
is let go instead, and the two workers left share one result. -/
theorem survey_endings_of_constant_limit_threeUnits :
    (∃ k < 3, IsLeast {j | CompilationUnit.unreadable (threeUnits.take j) = 1} k ∧
      ∃ halted, survey ∅ (fun _ => ((1 : Nat) : Int)) ∅ threeUnits = ⟨halted, some .starved⟩ ∧
        halted.log.starts = List.range k) ∧
    ∃ pool waiting,
      Pool.dispatch ∅ (fun _ => ((2 : Nat) : Int)) ∅ threeUnits = .ok pool ∧
      pool.workers.length = 2 ∧ waiting + 1 = 2 ∧
      ((survey ∅ (fun _ => ((2 : Nat) : Int)) ∅ threeUnits).stop = some .starved ↔
        waiting < Pool.firstFailed pool.workers) := by
  have unread : CompilationUnit.unreadable (threeUnits.take 2) = 1 := by decide +kernel
  have whole : CompilationUnit.unreadable threeUnits = 1 := by decide +kernel
  constructor
  · have clogged : Pool.Clogged 1 threeUnits := ⟨by decide, Nat.le_of_eq unread.symm⟩
    rcases (survey_endings_of_constant_limit ∅ ∅ (Nat.le_refl 1) threeUnits).1 clogged with
      ⟨k, within, first, halted, _, ended, _, starts⟩
    exact ⟨k, within, first, halted, ended, starts⟩
  · have free : ¬ Pool.Clogged 2 threeUnits := by
      intro clogged
      have many : 2 ≤ CompilationUnit.unreadable (threeUnits.take 2) := clogged.2
      omega
    rcases (survey_endings_of_constant_limit ∅ ∅ (Nat.le_succ 1) threeUnits).2 free with
      ⟨pool, waiting, dispatched, _, _, _, size, matched, starved, _⟩
    rw [whole] at matched
    exact ⟨pool, waiting, dispatched, size, matched, starved⟩

end Deadwood
