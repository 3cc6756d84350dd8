import Deadwood.Pool.Basic
import Deadwood.Proofs.Pool.Reaping

namespace Deadwood
namespace Pool

/-!
# The accounts of a pool

Results are taken at moments that have nothing to do with the worker whose place
is given up, so the pool is described by two independent accounts.  The `Account`
relates what was taken and what still waits to the results that the workers send,
in the order of the units.  The `Roster` relates the workers in the pool to their
units.  Every operation of the pool has its effect on one of them and leaves the
other alone.

A `Ledger` joins the two between units, when every unit was paid for once: either
its worker is still in the pool, or one result was taken in exchange.  Whether the
next unit can be accepted is then a matter of counting.
-/

/-! ## What the units decide -/

/-- The results that the workers on these units send, in their order. -/
def results (functions : NameSet) (units : List CompilationUnit) : List NameSet :=
  units.filterMap (CompilationUnit.mentions? functions)

/-- The number of units whose workers send nothing. -/
def silent (functions : NameSet) (units : List CompilationUnit) : Nat :=
  units.countP fun unit => (unit.mentions? functions).isNone

/-- The code with which the worker on a unit leaves. -/
def exitCodeOn (functions : NameSet) (unit : CompilationUnit) : Int :=
  if (unit.mentions? functions).isSome then unit.exitCode else 1

/-- What identifies a worker while its patience wears off. -/
def Worker.badge (worker : Worker) : Nat × Int :=
  (worker.number, worker.exitCode)

/-- The badges of the workers on these units, in their order. -/
def badges (functions : NameSet) (units : List CompilationUnit) : List (Nat × Int) :=
  units.mapIdx fun number unit => (number, exitCodeOn functions unit)

theorem results_append (functions : NameSet) (units more : List CompilationUnit) :
    results functions (units ++ more) = results functions units ++ results functions more :=
  List.filterMap_append

theorem results_append_singleton (functions : NameSet) (units : List CompilationUnit)
    (unit : CompilationUnit) :
    results functions (units ++ [unit]) =
      results functions units ++ (unit.mentions? functions).toList := by
  rw [results_append]
  cases sent : unit.mentions? functions <;> simp [results, sent]

theorem length_results_add_silent (functions : NameSet) (units : List CompilationUnit) :
    (results functions units).length + silent functions units = units.length := by
  induction units with
  | nil => rfl
  | cons unit units ih =>
      cases sent : unit.mentions? functions <;>
        simp only [results, silent, List.filterMap_cons, List.countP_cons, sent,
          List.length_cons, Option.isNone_none, Option.isNone_some] at ih ⊢ <;>
        simp only [if_true, Bool.false_eq_true, if_false] <;> omega

/-! ## The two accounts -/

/-- Of `sent`, the first `taken` results are in the used names and the others wait
in the queue. -/
structure Account (sent : List NameSet) (before : NameSet) (taken : Nat) (pool : Pool) :
    Prop where
  taken_le : taken ≤ sent.length
  queue_eq : pool.queue = sent.drop taken
  mem_used : ∀ name, name ∈ pool.used ↔ name ∈ before ∨ ∃ found ∈ sent.take taken, name ∈ found

/-- The workers in the pool are on some of the units, in their order. -/
structure Roster (functions : NameSet) (units : List CompilationUnit) (pool : Pool) : Prop where
  started_eq : pool.started = units.length
  running_eq : pool.running = pool.workers.length
  badges_sublist : (pool.workers.map Worker.badge).Sublist (badges functions units)

/-- Nothing but the queue, the used names and the log may differ. -/
structure SameStaff (pool next : Pool) : Prop where
  started_eq : next.started = pool.started
  running_eq : next.running = pool.running
  workers_eq : next.workers = pool.workers

variable {functions before : NameSet} {units : List CompilationUnit} {sent : List NameSet}
  {taken : Nat} {pool next : Pool}

theorem SameStaff.trans {last : Pool} (first : SameStaff pool next) (second : SameStaff next last) :
    SameStaff pool last := by
  constructor
  · exact second.started_eq.trans first.started_eq
  · exact second.running_eq.trans first.running_eq
  · exact second.workers_eq.trans first.workers_eq

theorem sameStaff_record (pool : Pool) (events : Log) : SameStaff pool (pool.record events) :=
  ⟨rfl, rfl, rfl⟩

theorem Roster.of_sameStaff (roster : Roster functions units pool) (same : SameStaff pool next) :
    Roster functions units next := by
  constructor
  · rw [same.started_eq, roster.started_eq]
  · rw [same.running_eq, same.workers_eq, roster.running_eq]
  · rw [same.workers_eq]
    exact roster.badges_sublist

theorem Account.of_eq (account : Account sent before taken pool)
    (queue : next.queue = pool.queue) (used : next.used = pool.used) :
    Account sent before taken next := by
  constructor
  · exact account.taken_le
  · rw [queue, account.queue_eq]
  · rw [used]
    exact account.mem_used

/-! ## Taking a result -/

theorem Account.receive_of_lt (account : Account sent before taken pool)
    (waiting : taken < sent.length) :
    ∃ next, pool.receive = .ok next ∧ Account sent before (taken + 1) next ∧
      SameStaff pool next := by
  have queued : pool.queue = sent[taken] :: sent.drop (taken + 1) := by
    rw [account.queue_eq, List.drop_eq_getElem_cons waiting]
  rw [receive, queued]
  refine ⟨_, rfl, ⟨waiting, rfl, ?_⟩, ⟨rfl, rfl, rfl⟩⟩
  intro name
  have grown : sent.take (taken + 1) = sent.take taken ++ [sent[taken]] :=
    List.take_succ_eq_append_getElem waiting
  simp only [Std.ExtTreeSet.mem_union_iff, account.mem_used, grown, List.mem_append,
    List.mem_singleton, or_and_right, exists_or, exists_eq_left, or_assoc]

theorem Account.receive_of_le (account : Account sent before taken pool)
    (drained : sent.length ≤ taken) :
    pool.receive = .error ⟨.starved, pool.record [.starve]⟩ := by
  have empty : pool.queue = [] := by
    rw [account.queue_eq, List.drop_of_length_le drained]
  rw [receive, empty]

/-! ## Letting a worker go -/

theorem Roster.retire (roster : Roster functions units pool) (staffed : pool.workers ≠ []) :
    ∃ next, pool.retire = .ok next ∧ Roster functions units next ∧
      next.workers.length + 1 = pool.workers.length ∧
      next.queue = pool.queue ∧ next.used = pool.used := by
  rcases exists_reap?_letsGo staffed with ⟨reaping, front, worker, back, reaped, split, letsGo⟩
  have fewer : reaping.kept.length + 1 = pool.workers.length := by
    simp only [letsGo.kept_eq, split, List.length_append, List.length_map, List.length_cons]
    omega
  have remaining : (reaping.kept.map Worker.badge).Sublist (pool.workers.map Worker.badge) := by
    have untouched : reaping.kept.map Worker.badge = (front ++ back).map Worker.badge := by
      rw [letsGo.kept_eq, List.map_append, List.map_append, List.map_map, List.map_map]
      rfl
    rw [untouched, split]
    exact ((List.sublist_cons_self worker back).append_left front).map Worker.badge
  rw [Pool.retire, reaped]
  refine ⟨_, rfl, ⟨roster.started_eq, ?_, remaining.trans roster.badges_sublist⟩, fewer, rfl, rfl⟩
  have running := roster.running_eq
  show pool.running - 1 = reaping.kept.length
  omega

/-! ## Starting a worker -/

theorem Account.launch (account : Account (results functions units) before taken pool)
    (unit : CompilationUnit) :
    Account (results functions (units ++ [unit])) before taken (pool.launch functions unit) := by
  have within := account.taken_le
  rw [results_append_singleton]
  constructor
  · rw [List.length_append]
    omega
  · rw [List.drop_append_of_le_length within, ← account.queue_eq]
    rfl
  · rw [List.take_append_of_le_length within]
    exact account.mem_used

theorem Roster.launch (roster : Roster functions units pool) (unit : CompilationUnit) :
    Roster functions (units ++ [unit]) (pool.launch functions unit) := by
  constructor
  · rw [List.length_append, ← roster.started_eq]
    rfl
  · show pool.running + 1 = (pool.workers ++ [_]).length
    rw [List.length_append, roster.running_eq]
    rfl
  · show ((pool.workers ++ [Worker.forUnit pool.started unit _]).map Worker.badge).Sublist _
    rw [List.map_append, badges, List.mapIdx_concat, ← roster.started_eq]
    exact roster.badges_sublist.append (List.Sublist.refl _)

/-! ## Accepting a unit -/

/-- The number of workers in the pool when a unit comes up, provided that the run
gets so far.  A full pool exchanges one worker for another. -/
def occupancy (limits : Limits) : Nat → Nat
  | 0 => 0
  | k + 1 =>
      if limits k ≤ occupancy limits k then occupancy limits k else occupancy limits k + 1

/-- Every unit that was accepted has its worker in the pool or was exchanged for a
taken result. -/
structure Ledger (functions : NameSet) (limits : Limits) (before : NameSet)
    (units : List CompilationUnit) (taken : Nat) (pool : Pool) : Prop where
  roster : Roster functions units pool
  account : Account (results functions units) before taken pool
  balance : taken + pool.workers.length = units.length
  occupied : pool.workers.length = occupancy limits units.length

variable {limits : Limits}

theorem Ledger.fresh (functions : NameSet) (limits : Limits) (before : NameSet) :
    Ledger functions limits before [] 0 { used := before } := by
  constructor
  · exact ⟨rfl, rfl, List.Sublist.refl _⟩
  · exact ⟨Nat.le_refl _, rfl, fun name => by simp⟩
  · rfl
  · rfl

/-- Results sent and taken are balanced by silent units and workers in the pool. -/
theorem Ledger.supply (ledger : Ledger functions limits before units taken pool) :
    (results functions units).length + silent functions units =
      taken + occupancy limits units.length := by
  rw [length_results_add_silent, ← ledger.occupied, ledger.balance]

/-- Results wait in the queue exactly as long as the pool holds more workers than
have failed to send one. -/
theorem Ledger.waiting_iff (ledger : Ledger functions limits before units taken pool) :
    taken < (results functions units).length ↔
      silent functions units < occupancy limits units.length := by
  have supply := ledger.supply
  omega

theorem Ledger.record (ledger : Ledger functions limits before units taken pool) (events : Log) :
    Ledger functions limits before units taken (pool.record events) := by
  constructor
  · exact ledger.roster.of_sameStaff (sameStaff_record pool events)
  · exact ledger.account.of_eq rfl rfl
  · exact ledger.balance
  · exact ledger.occupied

/-- A place is made unless a full pool has no result to take.  The balance of the
ledger survives, since a result is taken and a worker is let go, or neither. -/
theorem Ledger.makeRoom_of_supplied (ledger : Ledger functions limits before units taken pool)
    (supplied : limits units.length ≤ occupancy limits units.length →
      silent functions units < occupancy limits units.length) :
    ∃ next taken, pool.makeRoom (limits units.length) = .ok next ∧
      Roster functions units next ∧ Account (results functions units) before taken next ∧
      taken + next.workers.length = units.length ∧
      next.workers.length + 1 = occupancy limits (units.length + 1) := by
  have balance := ledger.balance
  have running : pool.running = occupancy limits units.length := by
    rw [ledger.roster.running_eq, ledger.occupied]
  rw [makeRoom, running, occupancy]
  by_cases full : limits units.length ≤ occupancy limits units.length
  · rw [if_pos full, if_pos full]
    rcases ledger.account.receive_of_lt (ledger.waiting_iff.mpr (supplied full)) with
      ⟨paid, received, account, same⟩
    have staffed : paid.workers ≠ [] := by
      intro empty
      have none := ledger.occupied
      rw [← same.workers_eq, empty, List.length_nil] at none
      exact absurd (supplied full) (by omega)
    rcases (ledger.roster.of_sameStaff same).retire staffed with
      ⟨next, retired, roster, fewer, queue, used⟩
    rw [same.workers_eq] at fewer
    refine ⟨next, taken + 1, ?_, roster, account.of_eq queue used, by omega, ?_⟩
    · rw [received]
      exact retired
    · rw [fewer, ledger.occupied]
  · rw [if_neg full, if_neg full]
    exact ⟨pool, taken, rfl, ledger.roster, ledger.account, balance, by rw [ledger.occupied]⟩

theorem Ledger.makeRoom_of_drained (ledger : Ledger functions limits before units taken pool)
    (full : limits units.length ≤ occupancy limits units.length)
    (drained : occupancy limits units.length ≤ silent functions units) :
    pool.makeRoom (limits units.length) = .error ⟨.starved, pool.record [.starve]⟩ := by
  have running : pool.running = occupancy limits units.length := by
    rw [ledger.roster.running_eq, ledger.occupied]
  have nothing : (results functions units).length ≤ taken :=
    Nat.le_of_not_lt fun waiting => Nat.not_lt.mpr drained (ledger.waiting_iff.mp waiting)
  rw [makeRoom, running, if_pos full, ledger.account.receive_of_le nothing]
  rfl

theorem Ledger.accept_of_supplied (ledger : Ledger functions limits before units taken pool)
    (total : Nat) (unit : CompilationUnit)
    (supplied : limits units.length ≤ occupancy limits units.length →
      silent functions units < occupancy limits units.length) :
    ∃ next taken, accept functions limits total pool unit = .ok next ∧
      Ledger functions limits before (units ++ [unit]) taken next := by
  rcases (ledger.record _).makeRoom_of_supplied supplied with
    ⟨roomy, taken, made, roster, account, balance, occupied⟩
  rw [accept, ledger.roster.started_eq, made]
  refine ⟨_, taken, rfl, roster.launch unit, account.launch unit, ?_, ?_⟩
  · simp only [launch, List.length_append, List.length_singleton]
    omega
  · simpa only [launch, List.length_append, List.length_singleton] using occupied

/-- A run that gets stuck at a unit does so before anybody is let go or started. -/
theorem Ledger.accept_of_drained (ledger : Ledger functions limits before units taken pool)
    (total : Nat) (unit : CompilationUnit)
    (full : limits units.length ≤ occupancy limits units.length)
    (drained : occupancy limits units.length ≤ silent functions units) :
    ∃ halted, accept functions limits total pool unit = .error ⟨.starved, halted⟩ ∧
      SameStaff pool halted := by
  rw [accept, ledger.roster.started_eq, (ledger.record _).makeRoom_of_drained full drained]
  exact ⟨_, rfl, ⟨rfl, rfl, rfl⟩⟩

end Pool
end Deadwood
