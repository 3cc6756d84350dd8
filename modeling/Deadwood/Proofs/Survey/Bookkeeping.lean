import Mathlib.Data.Finset.Lattice.Fold
import Deadwood.Proofs.Pool.Chronicle
import Deadwood.Proofs.Survey.Union

namespace Deadwood
namespace Pool

/-!
# The books of a pool between two units

A counter, a list of workers and a queue are kept by different operations of the
pool, and the limit against which the counter is held may change with every unit.
Whenever a unit comes up, the three agree with each other and with the log.  The
counter is the number of workers in the pool.  These are the workers that were
started and not found ended.  Results wait for all of them but as many as have met
an unreadable token.

A unit adds a worker to the pool or exchanges one, so the pool never grows beyond
the largest of the limits that were asked for.
-/

variable {functions before : NameSet} {limits : Limits} {units : List CompilationUnit}
  {k : Nat} {pool : Pool}

/-- The pool in which unit number `k` comes up, provided that the run gets so far. -/
def comingUp (functions : NameSet) (limits : Limits) (before : NameSet)
    (units : List CompilationUnit) (k : Nat) : Except Halted Pool :=
  (units.take k).foldlM (accept functions limits units.length) { used := before }

theorem comingUp_length (functions : NameSet) (limits : Limits) (before : NameSet)
    (units : List CompilationUnit) :
    comingUp functions limits before units units.length =
      dispatch functions limits before units := by
  rw [comingUp, List.take_length, dispatch]

theorem comingUp_succ (functions : NameSet) (limits : Limits) (before : NameSet)
    (within : k < units.length) :
    comingUp functions limits before units (k + 1) = (do
      let pool ← comingUp functions limits before units k
      accept functions limits units.length pool units[k]) := by
  rw [comingUp, List.take_succ_eq_append_getElem within, List.foldlM_append]
  simp only [List.foldlM_cons, List.foldlM_nil, bind_pure]
  rfl

/-! ## The books -/

theorem ledger_of_comingUp (reached : comingUp functions limits before units k = .ok pool) :
    ∃ taken, Ledger functions limits before (units.take k) taken pool :=
  (sustained_of_foldlM_accept reached).2

theorem chronicle_of_comingUp (reached : comingUp functions limits before units k = .ok pool) :
    Chronicle functions before (units.take k) pool := by
  rcases (Chronicle.fresh functions before).foldlM_accept limits units.length (units.take k) with
    ⟨accepted, earlier, chronicle⟩
  rw [← comingUp, reached, List.nil_append] at chronicle
  rcases ledger_of_comingUp reached with ⟨taken, ledger⟩
  have all : accepted = units.take k := by
    apply earlier.eq_of_length
    rw [← ledger.roster.started_eq]
    exact chronicle.started_eq.symm
  rw [← all]
  exact chronicle

/-- The number of workers is decided by the limits alone. -/
theorem length_workers_of_comingUp (within : k ≤ units.length)
    (reached : comingUp functions limits before units k = .ok pool) :
    pool.workers.length = occupancy limits k := by
  rcases ledger_of_comingUp reached with ⟨taken, ledger⟩
  rw [ledger.occupied, List.length_take_of_le within]

theorem length_workers_add_reaped (within : k ≤ units.length)
    (reached : comingUp functions limits before units k = .ok pool) :
    pool.workers.length + pool.log.reaped.length = k := by
  have staff := (chronicle_of_comingUp reached).staff_perm.length_eq
  rw [List.length_append, List.length_map, List.length_range, List.length_take_of_le within]
    at staff
  rw [Nat.add_comm]
  exact staff

/-- Every worker in the pool is matched by a waiting result or by an unreadable
unit, although not by its own. -/
theorem length_queue_add_unreadable
    (reached : comingUp functions limits before units k = .ok pool) :
    pool.queue.length + CompilationUnit.unreadable (units.take k) = pool.workers.length := by
  rcases ledger_of_comingUp reached with ⟨taken, ledger⟩
  have supply := ledger.supply
  have within := ledger.account.taken_le
  have waiting : pool.queue.length = (results functions (units.take k)).length - taken := by
    rw [ledger.account.queue_eq, List.length_drop]
  rw [← silent_eq_unreadable functions, ledger.occupied]
  omega

/-! ## The next worker -/

/-- A worker is started on a unit unless the pool is full and no result waits. -/
theorem comingUp_succ_iff (within : k < units.length)
    (reached : comingUp functions limits before units k = .ok pool) :
    (∃ next, comingUp functions limits before units (k + 1) = .ok next) ↔
      (limits k ≤ pool.running → pool.queue ≠ []) := by
  have size : (units.take k).length = k := List.length_take_of_le (Nat.le_of_lt within)
  have matched := length_queue_add_unreadable reached
  rcases ledger_of_comingUp reached with ⟨taken, ledger⟩
  have running := ledger.roster.running_eq
  have occupied := ledger.occupied
  rw [comingUp_succ functions limits before within, reached]
  change (∃ next, accept functions limits units.length pool units[k] = .ok next) ↔ _
  rw [← silent_eq_unreadable functions] at matched
  have atLimit : limits (units.take k).length ≤ occupancy limits (units.take k).length ↔
      limits k ≤ pool.running := by
    rw [running, occupied, size]
  constructor
  · intro accepted full empty
    rcases accepted with ⟨next, accepted⟩
    rw [empty, List.length_nil] at matched
    have drained : occupancy limits (units.take k).length ≤ silent functions (units.take k) := by
      omega
    rcases ledger.accept_of_drained units.length units[k] (atLimit.mpr full) drained with
      ⟨halted, stuck, _⟩
    rw [accepted] at stuck
    cases stuck
  · intro supplied
    have waiting : limits (units.take k).length ≤ occupancy limits (units.take k).length →
        silent functions (units.take k) < occupancy limits (units.take k).length := by
      intro full
      have positive := List.length_pos_iff.mpr (supplied (atLimit.mp full))
      omega
    rcases ledger.accept_of_supplied units.length units[k] waiting with ⟨next, _, accepted, _⟩
    exact ⟨next, accepted⟩

/-- A pool that holds workers was below one of the limits once. -/
theorem exists_occupancy_le (limits : Limits) (k : Nat) (occupied : 0 < occupancy limits k) :
    ∃ j < k, (occupancy limits k : Int) ≤ limits j := by
  induction k with
  | zero => cases occupied
  | succ k ih =>
      rw [occupancy] at occupied ⊢
      by_cases full : limits k ≤ occupancy limits k
      · rw [if_pos full] at occupied ⊢
        rcases ih occupied with ⟨j, earlier, bounded⟩
        exact ⟨j, Nat.lt_succ_of_lt earlier, bounded⟩
      · rw [if_neg full]
        exact ⟨k, Nat.lt_succ_self k, by omega⟩

/-- A pool in which a worker was just started holds no more than the largest limit. -/
theorem length_workers_le_sup (within : k < units.length) {next : Pool}
    (reached : comingUp functions limits before units k = .ok pool)
    (started : comingUp functions limits before units (k + 1) = .ok next) :
    (next.workers.length : Int) ≤
      (Finset.range (k + 1)).sup' Finset.nonempty_range_add_one limits := by
  have now := length_workers_of_comingUp (Nat.le_of_lt within) reached
  have matched := length_queue_add_unreadable reached
  have supplied := (comingUp_succ_iff within reached).mp ⟨next, started⟩
  rcases ledger_of_comingUp reached with ⟨taken, ledger⟩
  have running := ledger.roster.running_eq
  have occupied : 0 < occupancy limits (k + 1) := by
    rw [occupancy]
    by_cases full : limits k ≤ occupancy limits k
    · -- A full pool that takes a result has workers.
      rw [← now, ← running] at full
      have waiting := List.length_pos_iff.mpr (supplied full)
      rw [← now, ← running, if_pos full]
      omega
    · rw [if_neg full]
      exact Nat.succ_pos _
  rcases exists_occupancy_le limits (k + 1) occupied with ⟨j, earlier, bounded⟩
  rw [length_workers_of_comingUp (Nat.succ_le_of_lt within) started]
  exact bounded.trans (Finset.le_sup' limits (Finset.mem_range.mpr earlier))

end Pool

/-- Whenever a unit comes up, the counter, the list of workers, the queue and the
log agree.  If a worker is started on the unit, there is one more in the pool where
the limit allows it and as many as before where not, and never more than the
largest limit so far. -/
theorem pool_books_agree {functions before : NameSet} {limits : Pool.Limits}
    {units : List CompilationUnit} {k : Nat} {pool : Pool} (within : k < units.length)
    (reached : Pool.comingUp functions limits before units k = .ok pool) :
    pool.running = pool.workers.length ∧
    pool.workers.length + pool.log.reaped.length = k ∧
    pool.queue.length + CompilationUnit.unreadable (units.take k) = pool.running ∧
    ((∃ next, Pool.comingUp functions limits before units (k + 1) = .ok next) ↔
      (limits k ≤ pool.running → pool.queue ≠ [])) ∧
    ∀ next, Pool.comingUp functions limits before units (k + 1) = .ok next →
      next.workers.length =
        (if (pool.running : Int) < limits k then pool.running + 1 else pool.running) ∧
      (next.workers.length : Int) ≤
        (Finset.range (k + 1)).sup' Finset.nonempty_range_add_one limits := by
  have running : pool.running = pool.workers.length := by
    rcases Pool.ledger_of_comingUp reached with ⟨taken, ledger⟩
    exact ledger.roster.running_eq
  refine ⟨running, Pool.length_workers_add_reaped (Nat.le_of_lt within) reached, ?_,
    Pool.comingUp_succ_iff within reached, ?_⟩
  · rw [running]
    exact Pool.length_queue_add_unreadable reached
  · intro next started
    refine ⟨?_, Pool.length_workers_le_sup within reached started⟩
    rw [Pool.length_workers_of_comingUp (Nat.succ_le_of_lt within) started, Pool.occupancy,
      ← Pool.length_workers_of_comingUp (Nat.le_of_lt within) reached, ← running]
    by_cases full : limits k ≤ pool.running
    · rw [if_pos full, if_neg (Int.not_lt.mpr full)]
    · rw [if_neg full, if_pos (Int.not_le.mp full)]

/-- Three units, the second of which cannot be read. -/
def threeUnits : List CompilationUnit :=
  [{ polls := 3 }, { nodes := [⟨.construct "CALL_EXPR", "f", none⟩] }, {}]

/-- With the limits two, two and one, the third worker is exchanged for another,
although the pool holds more workers than the last limit asks for. -/
theorem pool_books_agree_exchange :
    ∃ pool next,
      Pool.comingUp ∅ (Pool.Limits.ofList [2, 2, 1]) ∅ threeUnits 2 = .ok pool ∧
      Pool.comingUp ∅ (Pool.Limits.ofList [2, 2, 1]) ∅ threeUnits 3 = .ok next ∧
      pool.running = 2 ∧ pool.workers.length = 2 ∧ pool.queue.length + 1 = 2 ∧
      next.workers.length = 2 ∧
      (next.workers.length : Int) ≤
        (Finset.range 3).sup' Finset.nonempty_range_add_one (Pool.Limits.ofList [2, 2, 1]) := by
  obtain ⟨pool, reached⟩ :
      ∃ pool, Pool.comingUp ∅ (Pool.Limits.ofList [2, 2, 1]) ∅ threeUnits 2 = .ok pool :=
    ⟨_, rfl⟩
  obtain ⟨next, started⟩ :
      ∃ next, Pool.comingUp ∅ (Pool.Limits.ofList [2, 2, 1]) ∅ threeUnits 3 = .ok next :=
    ⟨_, rfl⟩
  have running : pool.running = 2 := by
    have evaluated : (Pool.comingUp ∅ (Pool.Limits.ofList [2, 2, 1]) ∅ threeUnits 2).map
        Pool.running = .ok 2 := rfl
    rw [reached] at evaluated
    exact Except.ok.inj evaluated
  have unread : CompilationUnit.unreadable (threeUnits.take 2) = 1 := by decide +kernel
  rcases pool_books_agree (by decide) reached with ⟨staff, _, matched, _, exchange⟩
  rcases exchange next started with ⟨size, bounded⟩
  rw [running] at staff matched size
  rw [unread] at matched
  exact ⟨pool, next, reached, started, running, staff.symm, matched, size, bounded⟩

end Deadwood
