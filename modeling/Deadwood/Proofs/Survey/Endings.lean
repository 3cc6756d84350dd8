import Mathlib.Data.List.Induction
import Deadwood.Proofs.Pool.Accounting
import Deadwood.Survey

namespace Deadwood

/-!
# How a survey ends

A survey has two phases, and in each of them it can get stuck for want of a
result.  While units are accepted, this is decided by the limits and by the number
of silent units alone; the order in which workers end plays no part.  While the
remaining workers are collected, it matters which of them has failed and how many
results are left at that point.

The remaining workers are the only ones whose exit codes are ever looked at.  The
exact conditions for the three endings show what follows from this: a failure is
reported only if its worker was not let go before, and only if the results last
until it is joined.  In a pool that never gets full every failure is reported.
-/

namespace Pool

/-! ## Accepting all units -/

/-- Whenever the limit is reached before a unit, a result is waiting. -/
def Sustained (functions : NameSet) (limits : Limits) (units : List CompilationUnit) : Prop :=
  ∀ k < units.length, limits k ≤ occupancy limits k →
    silent functions (units.take k) < occupancy limits k

variable {functions before : NameSet} {limits : Limits} {units : List CompilationUnit}
  {sent : List NameSet} {taken : Nat} {pool : Pool}

theorem sustained_append_singleton {unit : CompilationUnit} :
    Sustained functions limits (units ++ [unit]) ↔
      Sustained functions limits units ∧
      (limits units.length ≤ occupancy limits units.length →
        silent functions units < occupancy limits units.length) := by
  have earlier {k : Nat} (within : k ≤ units.length) :
      (units ++ [unit]).take k = units.take k :=
    List.take_append_of_le_length within
  constructor
  · intro sustained
    constructor
    · intro k within full
      have supply := sustained k (by rw [List.length_append]; omega) full
      rwa [earlier (Nat.le_of_lt within)] at supply
    · intro full
      have supply := sustained units.length (by simp) full
      rwa [earlier (Nat.le_refl _), List.take_length] at supply
  · rintro ⟨sustained, last⟩ k within full
    rw [List.length_append, List.length_singleton] at within
    rcases Nat.lt_or_eq_of_le (Nat.le_of_lt_succ within) with before | rfl
    · rw [earlier (Nat.le_of_lt before)]
      exact sustained k before full
    · rw [earlier (Nat.le_refl _), List.take_length]
      exact last full

private theorem foldlM_append_singleton {α β ε : Type} (f : β → α → Except ε β) (start : β)
    (items : List α) (item : α) :
    (items ++ [item]).foldlM f start = items.foldlM f start >>= fun result => f result item := by
  simp

/-- A sustained run accepts all units and leaves its ledger balanced. -/
theorem exists_dispatch_ok (before : NameSet) (total : Nat)
    (sustained : Sustained functions limits units) :
    ∃ pool taken, units.foldlM (accept functions limits total) { used := before } = .ok pool ∧
      Ledger functions limits before units taken pool := by
  induction units using List.reverseRecOn with
  | nil => exact ⟨_, 0, rfl, Ledger.fresh functions limits before⟩
  | append_singleton units unit ih =>
      rcases sustained_append_singleton.mp sustained with ⟨earlier, supplied⟩
      rcases ih earlier with ⟨pool, taken, accepted, ledger⟩
      rcases ledger.accept_of_supplied total unit supplied with ⟨next, taken, step, ledger⟩
      refine ⟨next, taken, ?_, ledger⟩
      rw [foldlM_append_singleton, accepted]
      exact step

/-- Any other run gets stuck before it has accepted all units. -/
theorem exists_dispatch_starved (before : NameSet) (total : Nat)
    (unsustained : ¬ Sustained functions limits units) :
    ∃ halted, units.foldlM (accept functions limits total) { used := before } =
      .error ⟨.starved, halted⟩ := by
  induction units using List.reverseRecOn with
  | nil => exact absurd (fun k within => absurd within (Nat.not_lt_zero k)) unsustained
  | append_singleton units unit ih =>
      rw [foldlM_append_singleton]
      by_cases earlier : Sustained functions limits units
      · -- The run reaches the last unit and fails there.
        rcases exists_dispatch_ok before total earlier with ⟨pool, taken, accepted, ledger⟩
        have unsupplied : ¬ (limits units.length ≤ occupancy limits units.length →
            silent functions units < occupancy limits units.length) :=
          fun supplied => unsustained (sustained_append_singleton.mpr ⟨earlier, supplied⟩)
        rcases Classical.not_imp.mp unsupplied with ⟨full, dry⟩
        rcases ledger.accept_of_drained total unit full (Nat.not_lt.mp dry) with
          ⟨halted, stuck, _⟩
        exact ⟨halted, by rw [accepted]; exact stuck⟩
      · rcases ih earlier with ⟨halted, stuck⟩
        exact ⟨halted, by rw [stuck]; rfl⟩

/-- Whoever has accepted all units was sustained and has a balanced ledger. -/
theorem sustained_of_foldlM_accept {total : Nat}
    (accepted : units.foldlM (accept functions limits total) { used := before } = .ok pool) :
    Sustained functions limits units ∧
      ∃ taken, Ledger functions limits before units taken pool := by
  by_cases sustained : Sustained functions limits units
  · rcases exists_dispatch_ok before total sustained with ⟨next, taken, reached, ledger⟩
    rw [accepted] at reached
    cases reached
    exact ⟨sustained, taken, ledger⟩
  · rcases exists_dispatch_starved before total sustained with ⟨halted, stuck⟩
    rw [accepted] at stuck
    cases stuck

/-- The unit at which a run gets stuck.  It is the first for which a full pool has
no result to take, and no worker is started on it. -/
theorem exists_dispatch_starved_at (before : NameSet) {k : Nat} (within : k < units.length)
    (earlier : Sustained functions limits (units.take k)) (full : limits k ≤ occupancy limits k)
    (drained : occupancy limits k ≤ silent functions (units.take k)) :
    ∃ halted, dispatch functions limits before units = .error ⟨.starved, halted⟩ ∧
      halted.started = k := by
  have size : (units.take k).length = k := List.length_take_of_le (Nat.le_of_lt within)
  have split : units = units.take k ++ units[k] :: units.drop (k + 1) := by
    rw [← List.drop_eq_getElem_cons within, List.take_append_drop]
  rcases exists_dispatch_ok before units.length earlier with ⟨pool, taken, accepted, ledger⟩
  rcases ledger.accept_of_drained units.length units[k] (by rw [size]; exact full)
    (by rw [size]; exact drained) with ⟨halted, stuck, same⟩
  refine ⟨halted, ?_, ?_⟩
  · have steps : dispatch functions limits before units =
        (units.take k ++ units[k] :: units.drop (k + 1)).foldlM
          (accept functions limits units.length) { used := before } := by
      rw [← split]
      rfl
    rw [steps, List.foldlM_append, accepted]
    change (units[k] :: units.drop (k + 1)).foldlM (accept functions limits units.length) pool = _
    rw [List.foldlM_cons, stuck]
    rfl
  · rw [same.started_eq, ledger.roster.started_eq, size]

/-! ## Collecting from the remaining workers -/

theorem sameStaff_receive (pool : Pool) : SameStaff pool (Survey.ofResult pool.receive).pool := by
  unfold receive
  split
  · exact sameStaff_record pool _
  · exact ⟨rfl, rfl, rfl⟩

theorem sameStaff_collect (pool : Pool) (worker : Worker) :
    SameStaff pool (Survey.ofResult (pool.collect worker)).pool := by
  unfold collect
  by_cases proper : worker.exitCode = 0
  · simp only [if_pos proper]
    exact (sameStaff_record pool _).trans (sameStaff_receive _)
  · simp only [if_neg proper]
    exact ⟨rfl, rfl, rfl⟩

/-- Collecting leaves everybody in the pool, however it ends. -/
theorem sameStaff_foldlM_collect (pool : Pool) (workers : List Worker) :
    SameStaff pool (Survey.ofResult (workers.foldlM collect pool)).pool :=
  Survey.pool_ofResult_foldlM (P := SameStaff pool)
    (fun next worker same => same.trans (sameStaff_collect next worker)) workers ⟨rfl, rfl, rfl⟩

/-- Workers that left properly are collected as long as there are results. -/
theorem Account.exists_collect_ok (account : Account sent before taken pool)
    {workers : List Worker} (proper : ∀ worker ∈ workers, worker.exitCode = 0)
    (enough : taken + workers.length ≤ sent.length) :
    ∃ next, workers.foldlM collect pool = .ok next ∧
      Account sent before (taken + workers.length) next := by
  induction workers generalizing pool taken with
  | nil => exact ⟨pool, rfl, account⟩
  | cons worker workers ih =>
      rw [List.length_cons] at enough
      have joined : Account sent before taken (pool.record [.join worker.number]) :=
        account.of_eq rfl rfl
      rcases joined.receive_of_lt (by omega) with ⟨paid, received, account, _⟩
      rcases ih account (fun other member => proper other (List.mem_cons_of_mem _ member))
        (by omega) with ⟨next, collected, account⟩
      refine ⟨next, ?_, ?_⟩
      · rw [List.foldlM_cons, collect, if_pos (proper worker List.mem_cons_self), received]
        exact collected
      · rw [List.length_cons, Nat.add_comm workers.length 1, ← Nat.add_assoc]
        exact account

/-- The first worker that failed ends the collection, if it is reached. -/
theorem Account.exists_collect_failed (account : Account sent before taken pool)
    {front : List Worker} {worker : Worker} (back : List Worker)
    (proper : ∀ other ∈ front, other.exitCode = 0) (failed : worker.exitCode ≠ 0)
    (enough : taken + front.length ≤ sent.length) :
    ∃ halted, (front ++ worker :: back).foldlM collect pool =
      .error ⟨.workerFailed, halted⟩ := by
  rcases account.exists_collect_ok proper enough with ⟨next, collected, _⟩
  rw [List.foldlM_append, collected]
  change ∃ halted, (worker :: back).foldlM collect next = _
  rw [List.foldlM_cons, collect, if_neg failed]
  exact ⟨_, rfl⟩

/-- A worker that left properly is waited for in vain once all results are taken. -/
theorem Account.exists_collect_starved (account : Account sent before taken pool)
    {front : List Worker} {worker : Worker} (back : List Worker)
    (proper : ∀ other ∈ front, other.exitCode = 0) (left : worker.exitCode = 0)
    (exhausted : taken + front.length = sent.length) :
    ∃ halted, (front ++ worker :: back).foldlM collect pool = .error ⟨.starved, halted⟩ := by
  rcases account.exists_collect_ok proper (Nat.le_of_eq exhausted) with ⟨next, collected, account⟩
  have joined : Account sent before (taken + front.length)
      (next.record [.join worker.number]) := account.of_eq rfl rfl
  rw [List.foldlM_append, collected]
  change ∃ halted, (worker :: back).foldlM collect next = _
  rw [List.foldlM_cons, collect, if_pos left,
    joined.receive_of_le (Nat.le_of_eq exhausted.symm)]
  exact ⟨_, rfl⟩

/-- Either everybody can be collected, or there is a first worker at which the
collection ends, by a failure or for want of a result. -/
theorem collection_cases (workers : List Worker) (waiting : Nat) :
    ((∀ worker ∈ workers, worker.exitCode = 0) ∧ workers.length ≤ waiting) ∨
    (∃ front worker back, workers = front ++ worker :: back ∧
      (∀ other ∈ front, other.exitCode = 0) ∧ worker.exitCode ≠ 0 ∧ front.length ≤ waiting) ∨
    (∃ front worker back, workers = front ++ worker :: back ∧
      (∀ other ∈ front, other.exitCode = 0) ∧ worker.exitCode = 0 ∧ front.length = waiting) := by
  induction workers generalizing waiting with
  | nil => exact Or.inl ⟨by simp, Nat.zero_le _⟩
  | cons worker workers ih =>
      by_cases proper : worker.exitCode = 0
      · cases waiting with
        | zero => exact Or.inr (Or.inr ⟨[], worker, workers, rfl, by simp, proper, rfl⟩)
        | succ waiting =>
            rcases ih waiting with ⟨all, enough⟩ |
              ⟨front, other, back, rfl, all, failed, enough⟩ |
              ⟨front, other, back, rfl, all, left, enough⟩
            · exact Or.inl ⟨List.forall_mem_cons.mpr ⟨proper, all⟩, Nat.succ_le_succ enough⟩
            · exact Or.inr (Or.inl ⟨worker :: front, other, back, rfl,
                List.forall_mem_cons.mpr ⟨proper, all⟩, failed, Nat.succ_le_succ enough⟩)
            · exact Or.inr (Or.inr ⟨worker :: front, other, back, rfl,
                List.forall_mem_cons.mpr ⟨proper, all⟩, left, congrArg Nat.succ enough⟩)
      · exact Or.inr (Or.inl ⟨[], worker, workers, rfl, by simp, proper, Nat.zero_le _⟩)

end Pool

/-! ## The endings of a survey -/

variable {functions before : NameSet} {limits : Pool.Limits} {units : List CompilationUnit}

/-- A survey joins the workers that are left when all units are accepted. -/
theorem survey_of_dispatch {pool : Pool}
    (dispatched : Pool.dispatch functions limits before units = .ok pool) :
    survey functions limits before units = .ofResult (pool.workers.foldlM Pool.collect pool) ∧
      (survey functions limits before units).pool.workers = pool.workers := by
  have same : survey functions limits before units =
      .ofResult (pool.workers.foldlM Pool.collect pool) := by
    rw [survey, dispatched]
    rfl
  rw [same]
  exact ⟨rfl, (Pool.sameStaff_foldlM_collect pool pool.workers).workers_eq⟩

/-- A sustained survey comes to the collection of its remaining workers, in the
state that the ledger describes. -/
theorem survey_of_sustained (before : NameSet) (sustained : Pool.Sustained functions limits units) :
    ∃ pool taken, Pool.Ledger functions limits before units taken pool ∧
      (survey functions limits before units).pool.workers = pool.workers ∧
      survey functions limits before units =
        .ofResult (pool.workers.foldlM Pool.collect pool) := by
  rcases Pool.exists_dispatch_ok before units.length sustained with
    ⟨pool, taken, accepted, ledger⟩
  rcases survey_of_dispatch accepted with ⟨same, workers⟩
  exact ⟨pool, taken, ledger, workers, same⟩

theorem survey_of_not_sustained (before : NameSet)
    (unsustained : ¬ Pool.Sustained functions limits units) :
    (survey functions limits before units).stop = some .starved := by
  rcases Pool.exists_dispatch_starved before units.length unsustained with ⟨halted, stuck⟩
  rw [survey, Pool.dispatch, stuck]
  rfl

/-- If nobody was silent and everybody left properly, all results are taken. -/
theorem survey_of_proper (sustained : Pool.Sustained functions limits units)
    (proper : ∀ worker ∈ (survey functions limits before units).pool.workers,
      worker.exitCode = 0)
    (audible : Pool.silent functions units = 0) :
    (survey functions limits before units).stop = none ∧
      Pool.Account (Pool.results functions units) before (Pool.results functions units).length
        (survey functions limits before units).pool := by
  rcases survey_of_sustained before sustained with ⟨pool, taken, ledger, workers, same⟩
  rw [workers] at proper
  have exact : taken + pool.workers.length = (Pool.results functions units).length := by
    have supply := ledger.supply
    rw [audible, ← ledger.occupied] at supply
    exact supply.symm
  rcases ledger.account.exists_collect_ok proper (Nat.le_of_eq exact) with
    ⟨next, collected, account⟩
  rw [same, collected, ← exact]
  exact ⟨rfl, account⟩

theorem survey_of_failed {front back : List Pool.Worker} {worker : Pool.Worker}
    (sustained : Pool.Sustained functions limits units)
    (split : (survey functions limits before units).pool.workers = front ++ worker :: back)
    (proper : ∀ other ∈ front, other.exitCode = 0) (failed : worker.exitCode ≠ 0)
    (enough : front.length + Pool.silent functions units ≤ Pool.occupancy limits units.length) :
    (survey functions limits before units).stop = some .workerFailed := by
  rcases survey_of_sustained before sustained with ⟨pool, taken, ledger, workers, same⟩
  have supply := ledger.supply
  rcases ledger.account.exists_collect_failed back proper failed (by omega) with ⟨halted, ended⟩
  rw [same, ← workers, split, ended]
  rfl

theorem survey_of_exhausted {front back : List Pool.Worker} {worker : Pool.Worker}
    (sustained : Pool.Sustained functions limits units)
    (split : (survey functions limits before units).pool.workers = front ++ worker :: back)
    (proper : ∀ other ∈ front, other.exitCode = 0) (left : worker.exitCode = 0)
    (exhausted : front.length + Pool.silent functions units =
      Pool.occupancy limits units.length) :
    (survey functions limits before units).stop = some .starved := by
  rcases survey_of_sustained before sustained with ⟨pool, taken, ledger, workers, same⟩
  have supply := ledger.supply
  rcases ledger.account.exists_collect_starved back proper left (by omega) with ⟨halted, ended⟩
  rw [same, ← workers, split, ended]
  rfl

/-- A survey that does not get stuck at a unit has one of three endings, which the
remaining workers and the number of silent units decide. -/
theorem survey_cases (before : NameSet) (sustained : Pool.Sustained functions limits units) :
    ((∀ worker ∈ (survey functions limits before units).pool.workers, worker.exitCode = 0) ∧
      Pool.silent functions units = 0) ∨
    (∃ front worker back,
      (survey functions limits before units).pool.workers = front ++ worker :: back ∧
      (∀ other ∈ front, other.exitCode = 0) ∧ worker.exitCode ≠ 0 ∧
      front.length + Pool.silent functions units ≤ Pool.occupancy limits units.length) ∨
    (∃ front worker back,
      (survey functions limits before units).pool.workers = front ++ worker :: back ∧
      (∀ other ∈ front, other.exitCode = 0) ∧ worker.exitCode = 0 ∧
      front.length + Pool.silent functions units = Pool.occupancy limits units.length) := by
  rcases survey_of_sustained before sustained with ⟨pool, taken, ledger, workers, _⟩
  have supply := ledger.supply
  have within := ledger.account.taken_le
  have occupied := ledger.occupied
  rw [workers]
  rcases Pool.collection_cases pool.workers
      (Pool.occupancy limits units.length - Pool.silent functions units) with
    ⟨proper, enough⟩ | ⟨front, worker, back, split, proper, failed, enough⟩ |
      ⟨front, worker, back, split, proper, left, exhausted⟩
  · exact Or.inl ⟨proper, by omega⟩
  · exact Or.inr (Or.inl ⟨front, worker, back, split, proper, failed, by omega⟩)
  · exact Or.inr (Or.inr ⟨front, worker, back, split, proper, left, by omega⟩)

/-- A survey never waits for a worker to end while there is none. -/
theorem survey_stop_cases (functions : NameSet) (limits : Pool.Limits) (before : NameSet)
    (units : List CompilationUnit) :
    (survey functions limits before units).stop = none ∨
    (survey functions limits before units).stop = some .workerFailed ∨
    (survey functions limits before units).stop = some .starved := by
  by_cases sustained : Pool.Sustained functions limits units
  · rcases survey_cases before sustained with ⟨proper, audible⟩ |
      ⟨front, worker, back, split, proper, failed, enough⟩ |
      ⟨front, worker, back, split, proper, left, exhausted⟩
    · exact Or.inl (survey_of_proper sustained proper audible).1
    · exact Or.inr (Or.inl (survey_of_failed sustained split proper failed enough))
    · exact Or.inr (Or.inr (survey_of_exhausted sustained split proper left exhausted))
  · exact Or.inr (Or.inr (survey_of_not_sustained before sustained))

theorem survey_stop_eq_workerFailed_iff :
    (survey functions limits before units).stop = some .workerFailed ↔
      Pool.Sustained functions limits units ∧ ∃ front worker back,
        (survey functions limits before units).pool.workers = front ++ worker :: back ∧
        (∀ other ∈ front, other.exitCode = 0) ∧ worker.exitCode ≠ 0 ∧
        front.length + Pool.silent functions units ≤ Pool.occupancy limits units.length := by
  constructor
  · intro reported
    by_cases sustained : Pool.Sustained functions limits units
    · rcases survey_cases before sustained with ⟨proper, audible⟩ | failed |
        ⟨front, worker, back, split, proper, left, exhausted⟩
      · rw [(survey_of_proper sustained proper audible).1] at reported
        cases reported
      · exact ⟨sustained, failed⟩
      · rw [survey_of_exhausted sustained split proper left exhausted] at reported
        cases reported
    · rw [survey_of_not_sustained before sustained] at reported
      cases reported
  · rintro ⟨sustained, front, worker, back, split, proper, failed, enough⟩
    exact survey_of_failed sustained split proper failed enough

theorem survey_stop_eq_none_iff :
    (survey functions limits before units).stop = none ↔
      Pool.Sustained functions limits units ∧ Pool.silent functions units = 0 ∧
        ∀ worker ∈ (survey functions limits before units).pool.workers, worker.exitCode = 0 := by
  constructor
  · intro completed
    by_cases sustained : Pool.Sustained functions limits units
    · rcases survey_cases before sustained with ⟨proper, audible⟩ |
        ⟨front, worker, back, split, proper, failed, enough⟩ |
        ⟨front, worker, back, split, proper, left, exhausted⟩
      · exact ⟨sustained, audible, proper⟩
      · rw [survey_of_failed sustained split proper failed enough] at completed
        cases completed
      · rw [survey_of_exhausted sustained split proper left exhausted] at completed
        cases completed
    · rw [survey_of_not_sustained before sustained] at completed
      cases completed
  · rintro ⟨sustained, audible, proper⟩
    exact (survey_of_proper sustained proper audible).1

theorem survey_started_of_sustained (before : NameSet)
    (sustained : Pool.Sustained functions limits units) :
    (survey functions limits before units).pool.started = units.length := by
  rcases survey_of_sustained before sustained with ⟨pool, taken, ledger, _, same⟩
  rw [same, (Pool.sameStaff_foldlM_collect pool pool.workers).started_eq]
  exact ledger.roster.started_eq

/-- The workers that are joined are on a selection of the units, as many as the
limits leave room for. -/
theorem survey_remaining (before : NameSet) (sustained : Pool.Sustained functions limits units) :
    ((survey functions limits before units).pool.workers.map Pool.Worker.badge).Sublist
        (Pool.badges functions units) ∧
      (survey functions limits before units).pool.workers.length =
        Pool.occupancy limits units.length := by
  rcases survey_of_sustained before sustained with ⟨pool, taken, ledger, workers, _⟩
  rw [workers]
  exact ⟨ledger.roster.badges_sublist, ledger.occupied⟩

/-! ## A pool that is never full -/

theorem Pool.occupancy_of_roomy {count : Nat} (roomy : ∀ k < count, (k : Int) < limits k) :
    Pool.occupancy limits count = count := by
  induction count with
  | zero => rfl
  | succ count ih =>
      have filled := ih fun k within => roomy k (Nat.lt_succ_of_lt within)
      have room := roomy count (Nat.lt_succ_self count)
      rw [Pool.occupancy, filled, if_neg (by omega)]

/-- A silent worker is a failed one. -/
theorem Pool.silent_le_countP (functions : NameSet) (units : List CompilationUnit) :
    Pool.silent functions units ≤ (units.map (Pool.exitCodeOn functions)).countP (· ≠ 0) := by
  rw [List.countP_map]
  apply List.countP_mono_left
  intro unit _ mute
  simp [Pool.exitCodeOn, Option.isNone_iff_eq_none.mp mute]

theorem Pool.countP_failed_le {front : List Pool.Worker} {worker : Pool.Worker}
    (back : List Pool.Worker) (proper : ∀ other ∈ front, other.exitCode = 0)
    (left : worker.exitCode = 0) :
    ((front ++ worker :: back).map Pool.Worker.exitCode).countP (· ≠ 0) ≤ back.length := by
  rw [List.countP_map, List.countP_append, List.countP_cons_of_neg (by simp [left]),
    List.countP_eq_zero.mpr (by simpa using proper), Nat.zero_add]
  exact List.countP_le_length

/-- If there is always room for one more, nobody is let go and everybody is joined. -/
theorem survey_exitCodes_of_roomy (functions before : NameSet)
    (roomy : ∀ k < units.length, (k : Int) < limits k) :
    Pool.Sustained functions limits units ∧
      (survey functions limits before units).pool.workers.map Pool.Worker.exitCode =
        units.map (Pool.exitCodeOn functions) := by
  have sustained : Pool.Sustained functions limits units := by
    intro k within full
    have room := roomy k within
    rw [Pool.occupancy_of_roomy fun j earlier => roomy j (Nat.lt_trans earlier within)] at full
    omega
  rcases survey_remaining before sustained with ⟨selection, size⟩
  rw [Pool.occupancy_of_roomy roomy] at size
  have everybody := selection.eq_of_length (by simp [size, Pool.badges])
  refine ⟨sustained, ?_⟩
  calc (survey functions limits before units).pool.workers.map Pool.Worker.exitCode
      = ((survey functions limits before units).pool.workers.map Pool.Worker.badge).map
          Prod.snd := by rw [List.map_map]; rfl
    _ = (Pool.badges functions units).map Prod.snd := by rw [everybody]
    _ = units.map (Pool.exitCodeOn functions) :=
        List.ext_getElem (by simp [Pool.badges]) (by simp [Pool.badges])

/-- Silent workers cannot exhaust the results before a failed one is joined, because
the first silent one is such a failure itself. -/
theorem survey_stop_eq_workerFailed_iff_of_roomy
    (roomy : ∀ k < units.length, (k : Int) < limits k) :
    (survey functions limits before units).stop = some .workerFailed ↔
      ∃ unit ∈ units, Pool.exitCodeOn functions unit ≠ 0 := by
  rcases survey_exitCodes_of_roomy functions before roomy with ⟨sustained, codes⟩
  constructor
  · intro reported
    rcases survey_stop_eq_workerFailed_iff.mp reported with
      ⟨_, front, worker, back, split, _, failed, _⟩
    have listed : worker.exitCode ∈ units.map (Pool.exitCodeOn functions) := by
      rw [← codes, split]
      exact List.mem_map_of_mem (by simp)
    rcases List.mem_map.mp listed with ⟨unit, present, same⟩
    exact ⟨unit, present, by rwa [same]⟩
  · rintro ⟨unit, present, failed⟩
    rcases survey_cases before sustained with ⟨proper, _⟩ |
        ⟨front, worker, back, split, proper, failed, enough⟩ |
        ⟨front, worker, back, split, proper, left, exhausted⟩
    · have listed : Pool.exitCodeOn functions unit ∈
          (survey functions limits before units).pool.workers.map Pool.Worker.exitCode := by
        rw [codes]
        exact List.mem_map_of_mem present
      rcases List.mem_map.mp listed with ⟨worker, member, same⟩
      exact absurd (same.symm.trans (proper worker member)) failed
    · exact survey_of_failed sustained split proper failed enough
    · have mute := Pool.silent_le_countP functions units
      have size := congrArg List.length codes
      rw [← codes, split] at mute
      have few := Pool.countP_failed_le back proper left
      rw [Pool.occupancy_of_roomy roomy] at exhausted
      simp only [split, List.length_map, List.length_append, List.length_cons] at size
      omega

/-- A failed worker is reported exactly if the run does not get stuck at a unit,
some failed worker is joined at all, and the results last for the workers before
the first such one.  The run completes in spite of failed workers exactly if all
of them were let go before.  As long as the pool never gets full, a failure is
reported whichever the worker and whatever its reason. -/
theorem survey_reports_failure_iff (functions : NameSet) (limits : Pool.Limits)
    (before : NameSet) (units : List CompilationUnit) :
    ((survey functions limits before units).stop = some .workerFailed ↔
      Pool.Sustained functions limits units ∧ ∃ front worker back,
        (survey functions limits before units).pool.workers = front ++ worker :: back ∧
        (∀ other ∈ front, other.exitCode = 0) ∧ worker.exitCode ≠ 0 ∧
        front.length + Pool.silent functions units ≤ Pool.occupancy limits units.length) ∧
    ((survey functions limits before units).stop = none ↔
      Pool.Sustained functions limits units ∧ Pool.silent functions units = 0 ∧
        ∀ worker ∈ (survey functions limits before units).pool.workers, worker.exitCode = 0) ∧
    (Pool.Sustained functions limits units →
      ((survey functions limits before units).pool.workers.map Pool.Worker.badge).Sublist
        (Pool.badges functions units) ∧
      (survey functions limits before units).pool.workers.length =
        Pool.occupancy limits units.length) ∧
    ((∀ k < units.length, (k : Int) < limits k) →
      ((survey functions limits before units).stop = some .workerFailed ↔
        ∃ unit ∈ units, Pool.exitCodeOn functions unit ≠ 0)) :=
  ⟨survey_stop_eq_workerFailed_iff, survey_stop_eq_none_iff, survey_remaining before,
    survey_stop_eq_workerFailed_iff_of_roomy⟩

/-- Two ways in which a failure stays unreported although the limit is one: the
failed worker sends its result and is let go, and the worker that cannot read its
unit leaves the next one waiting. -/
theorem survey_failure_unreported :
    (survey ∅ (fun _ => 1) ∅ [{ exitCode := 3 }, {}]).pool.started = 2 ∧
    Pool.exitCodeOn ∅ { exitCode := 3 } ≠ 0 ∧
    (survey ∅ (fun _ => 1) ∅ [{ exitCode := 3 }, {}]).stop = none ∧
    (survey ∅ (fun _ => 1) ∅
      [{ nodes := [⟨.construct "CALL_EXPR", "f", none⟩] }, {}]).pool.started = 1 ∧
    Pool.exitCodeOn ∅ { nodes := [⟨.construct "CALL_EXPR", "f", none⟩] } ≠ 0 ∧
    (survey ∅ (fun _ => 1) ∅
      [{ nodes := [⟨.construct "CALL_EXPR", "f", none⟩] }, {}]).stop = some .starved := by
  decide +kernel

end Deadwood
