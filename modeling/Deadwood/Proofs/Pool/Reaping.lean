import Deadwood.Pool.Worker

namespace Deadwood
namespace Pool

/-!
# Which worker is let go

Waiting is a loop whose end is not in sight: it sweeps over the workers, sleeps for a
second if everybody was alive, and sweeps again.  The relation `Waits` says just this,
without a measure, and it has no outcome for an empty list of workers.  The function
that computes a wait is shown to follow it, so every other wait comes to an end.

Sweeping over the workers again and again uses up their patience evenly.  The wait
therefore ends with the earliest of the workers that had the least patience to begin
with, and all that comes of it can be written down in advance.  The workers in front of
that one were polled once more than those behind it, and all of them stay in their order.
-/

namespace Worker

/-- The worker after being found alive a number of times. -/
def tire (polls : Nat) (worker : Worker) : Worker :=
  { worker with patience := worker.patience - polls }

/-- The record of a worker that was found alive. -/
def foundAlive (worker : Worker) : Event :=
  .poll worker.number true

@[simp] theorem tire_number (polls : Nat) (worker : Worker) :
    (worker.tire polls).number = worker.number :=
  rfl

@[simp] theorem tire_patience (polls : Nat) (worker : Worker) :
    (worker.tire polls).patience = worker.patience - polls :=
  rfl

@[simp] theorem tire_zero : tire 0 = id :=
  rfl

theorem tire_comp_tire (later earlier : Nat) :
    tire later ∘ tire earlier = tire (earlier + later) := by
  funext worker
  simp only [Function.comp, tire, Nat.sub_sub]

end Worker

open Worker

variable {workers front back : List Worker} {worker : Worker} {reaping : Reaping}

/-! ## One sweep -/

theorem sweep_cons_of_alive (alive : 0 < worker.patience) (others : List Worker) :
    sweep (worker :: others) = ⟨(sweep others).retired, worker.tire 1 :: (sweep others).kept,
      worker.foundAlive :: (sweep others).log⟩ := by
  cases patience : worker.patience with
  | zero => omega
  | succ left =>
      simp only [sweep, patience, tire, Nat.add_sub_cancel]
      rfl

/-- A sweep over living workers goes through all of them. -/
theorem sweep_of_alive (alive : ∀ worker ∈ workers, 0 < worker.patience) :
    sweep workers = ⟨none, workers.map (tire 1), workers.map foundAlive⟩ := by
  induction workers with
  | nil => rfl
  | cons worker others ih =>
      rcases List.forall_mem_cons.mp alive with ⟨first, following⟩
      rw [sweep_cons_of_alive first, ih following, List.map_cons, List.map_cons]

/-- A sweep stops at the first worker that has ended. -/
theorem sweep_append_ended (alive : ∀ other ∈ front, 0 < other.patience)
    (spent : worker.patience = 0) (back : List Worker) :
    sweep (front ++ worker :: back) = ⟨some worker, front.map (tire 1) ++ back,
      front.map foundAlive ++ [.poll worker.number false]⟩ := by
  induction front with
  | nil => simp only [List.nil_append, sweep, spent, List.map_nil]
  | cons other front ih =>
      rcases List.forall_mem_cons.mp alive with ⟨first, following⟩
      rw [List.cons_append, sweep_cons_of_alive first, ih following]
      rfl

/-! ## The loop -/

/-- The workers are swept over until one of them has ended, with a second of sleep after
every sweep that goes through. -/
inductive Waits : List Worker → Reaping → Prop where
  | ended {workers : List Worker} {retired : Worker}
      (found : (sweep workers).retired = some retired) :
      Waits workers ⟨retired, (sweep workers).kept, (sweep workers).log⟩
  | again {workers : List Worker} {reaping : Reaping}
      (alive : (sweep workers).retired = none) (later : Waits (sweep workers).kept reaping) :
      Waits workers (reaping.after ((sweep workers).log ++ [.sleep 1]))

/-- A wait for nobody would never end. -/
theorem not_waits_nil (reaping : Reaping) : ¬ Waits [] reaping := by
  intro waits
  generalize nobody : ([] : List Worker) = workers at waits
  induction waits with
  | ended found =>
      subst nobody
      cases found
  | again _ _ ih =>
      subst nobody
      exact ih rfl

theorem Waits.unique {other : Reaping} (first : Waits workers reaping)
    (second : Waits workers other) : other = reaping := by
  induction first generalizing other with
  | ended found =>
      cases second with
      | ended again =>
          rw [found] at again
          cases again
          rfl
      | again alive _ =>
          rw [found] at alive
          cases alive
  | again alive _ ih =>
      cases second with
      | ended found =>
          rw [alive] at found
          cases found
      | again _ later => rw [ih later]

theorem reapFrom_waits (first : Worker) (patience : Nat) (others : List Worker) :
    Waits ({ first with patience := patience } :: others) (reapFrom first patience others) := by
  induction patience generalizing others with
  | zero => exact Waits.ended rfl
  | succ patience ih =>
      cases retired : (sweep others).retired with
      | some worker =>
          have ended : Waits ({ first with patience := patience + 1 } :: others) _ :=
            Waits.ended retired
          simp only [reapFrom, retired]
          exact ended
      | none =>
          have again : Waits ({ first with patience := patience + 1 } :: others) _ :=
            Waits.again retired (ih (sweep others).kept)
          simp only [reapFrom, retired]
          exact again

/-- What is computed for a wait is what comes of the loop. -/
theorem reap?_eq_some_iff_waits : reap? workers = some reaping ↔ Waits workers reaping := by
  cases workers with
  | nil => exact iff_of_false nofun (not_waits_nil reaping)
  | cons first others =>
      have waits : Waits (first :: others) (reapFrom first first.patience others) :=
        reapFrom_waits first first.patience others
      rw [reap?, Option.some.injEq]
      constructor
      · intro same
        rw [← same]
        exact waits
      · intro other
        exact other.unique waits

/-! ## What comes of a wait -/

/-- A number of passes over all workers, and a last one that stops at `worker`. -/
def waitLog (front : List Worker) (worker : Worker) (back : List Worker) (passes : Nat) : Log :=
  (List.replicate passes ((front ++ worker :: back).map foundAlive ++ [.sleep 1])).flatten ++
    (front.map foundAlive ++ [.poll worker.number false])

theorem waitLog_succ (front : List Worker) (worker : Worker) (back : List Worker)
    (passes : Nat) :
    waitLog front worker back (passes + 1) =
      (front ++ worker :: back).map foundAlive ++ [.sleep 1] ++
        waitLog front worker back passes := by
  rw [waitLog, waitLog, List.replicate_succ, List.flatten_cons, List.append_assoc]

/-- Patience does not show in the record of a wait. -/
theorem waitLog_tire (front : List Worker) (worker : Worker) (back : List Worker)
    (passes polls : Nat) :
    waitLog (front.map (tire polls)) (worker.tire polls) (back.map (tire polls)) passes =
      waitLog front worker back passes := by
  have same : foundAlive ∘ tire polls = foundAlive := by
    funext other
    rfl
  rw [waitLog, waitLog, ← List.map_cons, ← List.map_append, List.map_map, List.map_map, same,
    tire_number]

/-- The outcome of a wait that ends with `worker`. -/
def Reaping.lettingGo (front : List Worker) (worker : Worker) (back : List Worker) : Reaping where
  retired := worker.tire worker.patience
  kept := front.map (tire (worker.patience + 1)) ++ back.map (tire worker.patience)
  log := waitLog front worker back worker.patience

/-- One pass in front of a wait is a wait of more patient workers. -/
theorem Reaping.after_lettingGo (front : List Worker) (back : List Worker)
    (positive : 0 < worker.patience) :
    (lettingGo (front.map (tire 1)) (worker.tire 1) (back.map (tire 1))).after
        ((front ++ worker :: back).map foundAlive ++ [.sleep 1]) =
      lettingGo front worker back := by
  have restored : 1 + (worker.tire 1).patience = worker.patience := by
    rw [tire_patience]
    omega
  have passed : (worker.tire 1).patience + 1 = worker.patience := by
    rw [Nat.add_comm, restored]
  have retired : (worker.tire 1).tire (worker.tire 1).patience = worker.tire worker.patience :=
    (congrFun (tire_comp_tire _ 1) worker).trans (by rw [restored])
  simp only [lettingGo, after, waitLog_tire, List.map_map, tire_comp_tire, retired, restored]
  rw [← waitLog_succ, passed, Nat.add_comm 1 worker.patience]

/-- The wait ends with the earliest of the least patient workers. -/
theorem waits_lettingGo (front_outlasts : ∀ other ∈ front, worker.patience < other.patience)
    (back_outlasts : ∀ other ∈ back, worker.patience ≤ other.patience) :
    Waits (front ++ worker :: back) (.lettingGo front worker back) := by
  -- Each pass lowers the patience of everybody by one, so the order among them stays.
  induction passes : worker.patience generalizing front worker back with
  | zero =>
      have alive : ∀ other ∈ front, 0 < other.patience := by
        rw [passes] at front_outlasts
        exact front_outlasts
      have pass := sweep_append_ended alive passes back
      have ended : Waits (front ++ worker :: back) _ := Waits.ended (congrArg Sweep.retired pass)
      rw [pass] at ended
      rw [Reaping.lettingGo, passes, tire_zero, List.map_id]
      exact ended
  | succ patience ih =>
      have positive : 0 < worker.patience := by
        rw [passes]
        exact Nat.succ_pos patience
      have alive : ∀ other ∈ front ++ worker :: back, 0 < other.patience := by
        intro other member
        rw [List.mem_append, List.mem_cons] at member
        rcases member with before | same | behind
        · exact Nat.lt_of_le_of_lt (Nat.zero_le _) (front_outlasts other before)
        · rw [same]
          exact positive
        · exact Nat.lt_of_lt_of_le positive (back_outlasts other behind)
      have lowered : (worker.tire 1).patience = patience := by
        rw [tire_patience, passes, Nat.add_sub_cancel]
      have later : Waits (front.map (tire 1) ++ worker.tire 1 :: back.map (tire 1))
          (.lettingGo (front.map (tire 1)) (worker.tire 1) (back.map (tire 1))) := by
        apply ih _ _ lowered
        · intro other member
          rcases List.mem_map.mp member with ⟨rested, before, rfl⟩
          have outlasts := front_outlasts rested before
          rw [tire_patience, tire_patience]
          omega
        · intro other member
          rcases List.mem_map.mp member with ⟨rested, behind, rfl⟩
          rw [tire_patience, tire_patience]
          exact Nat.sub_le_sub_right (back_outlasts rested behind) 1
      have pass := sweep_of_alive alive
      have kept : (sweep (front ++ worker :: back)).kept =
          front.map (tire 1) ++ worker.tire 1 :: back.map (tire 1) := by
        rw [pass, List.map_append, List.map_cons]
      rw [← kept] at later
      have again := Waits.again (congrArg Sweep.retired pass) later
      rw [congrArg Sweep.log pass, Reaping.after_lettingGo front back positive] at again
      exact again

/-! ## The worker that is let go -/

/-- Among some workers there is an earliest of the least patient ones. -/
theorem exists_earliest (nonempty : workers ≠ []) :
    ∃ front worker back, workers = front ++ worker :: back ∧
      (∀ other ∈ front, worker.patience < other.patience) ∧
      ∀ other ∈ back, worker.patience ≤ other.patience := by
  induction workers with
  | nil => exact absurd rfl nonempty
  | cons first others ih =>
      by_cases alone : others = []
      · exact ⟨[], first, others, rfl, List.forall_mem_nil _, by simp [alone]⟩
      · rcases ih alone with ⟨front, worker, back, split, before, behind⟩
        by_cases earlier : first.patience ≤ worker.patience
        · refine ⟨[], first, others, rfl, List.forall_mem_nil _, ?_⟩
          intro other member
          rw [split, List.mem_append, List.mem_cons] at member
          rcases member with ahead | rfl | after
          · exact Nat.le_trans earlier (Nat.le_of_lt (before other ahead))
          · exact earlier
          · exact Nat.le_trans earlier (behind other after)
        · refine ⟨first :: front, worker, back, by rw [split, List.cons_append], ?_, behind⟩
          exact List.forall_mem_cons.mpr ⟨Nat.lt_of_not_le earlier, before⟩

/-- Whoever waits lets the earliest of the least patient workers go. -/
theorem exists_lettingGo_of_reap? (reaped : reap? workers = some reaping) :
    ∃ front worker back, workers = front ++ worker :: back ∧
      (∀ other ∈ front, worker.patience < other.patience) ∧
      (∀ other ∈ back, worker.patience ≤ other.patience) ∧
      reaping = .lettingGo front worker back := by
  have nonempty : workers ≠ [] := by
    intro nobody
    rw [reap?_eq_none_iff.mpr nobody] at reaped
    cases reaped
  rcases exists_earliest nonempty with ⟨front, worker, back, split, before, behind⟩
  refine ⟨front, worker, back, split, before, behind, ?_⟩
  have waits := waits_lettingGo before behind
  rw [← split] at waits
  exact waits.unique (reap?_eq_some_iff_waits.mp reaped)

/-- `reaping` is the outcome of a wait for `front`, `worker` and `back` that ended
with `worker`. -/
structure Reaping.LetsGo (reaping : Reaping) (front : List Worker) (worker : Worker)
    (back : List Worker) : Prop where
  front_outlasts : ∀ other ∈ front, worker.patience < other.patience
  back_outlasts : ∀ other ∈ back, worker.patience ≤ other.patience
  retired_eq : reaping.retired = worker.tire worker.patience
  kept_eq : reaping.kept =
    front.map (tire (worker.patience + 1)) ++ back.map (tire worker.patience)

/-- Whoever waits for some workers lets one of them go. -/
theorem exists_reap?_letsGo (nonempty : workers ≠ []) :
    ∃ reaping front worker back, reap? workers = some reaping ∧
      workers = front ++ worker :: back ∧ reaping.LetsGo front worker back := by
  cases reaped : reap? workers with
  | none => exact absurd (reap?_eq_none_iff.mp reaped) nonempty
  | some reaping =>
      rcases exists_lettingGo_of_reap? reaped with ⟨front, worker, back, split, before, behind, rfl⟩
      exact ⟨_, front, worker, back, rfl, split, before, behind, rfl, rfl⟩

end Pool
end Deadwood
