import Deadwood.Proofs.Pool.Careers
import Deadwood.Proofs.Survey.Bookkeeping

namespace Deadwood

/-!
# Waits that come to an end

A pool whose limit is reached waits until one of its workers has ended.  Nothing in the
wait itself bounds the number of passes.  It ends because a worker is found alive only a
fixed number of times, and it ends with the earliest of those that are found alive least
often.  This needs a worker to wait for.

A limit may be zero or less, so that a pool without workers counts as full.  Before
waiting, however, a result is taken from the queue.  As there are at least as many workers
as results, a pool without workers cannot get so far: it is stopped at the queue.
-/

namespace Pool

open Log

variable {functions before : NameSet} {limits : Limits} {units : List CompilationUnit}
  {pool : Pool}

/-- The pool with which a wait begins in the run over these units: one of them has come
up and has been announced, its limit is reached, and a result was taken. -/
def BeginsWait (functions : NameSet) (limits : Limits) (before : NameSet)
    (units : List CompilationUnit) (pool : Pool) : Prop :=
  ∃ k coming text, k < units.length ∧ comingUp functions limits before units k = .ok coming ∧
    limits k ≤ coming.running ∧ (coming.record (announce text)).receive = .ok pool

theorem BeginsWait.workers_ne_nil (begins : BeginsWait functions limits before units pool) :
    pool.workers ≠ [] := by
  rcases begins with ⟨k, coming, text, _, reached, _, received⟩
  rcases exists_names_of_receive received with ⟨waiting, staff, _⟩
  have results : 0 < coming.queue.length := List.length_pos_iff.mpr waiting
  have matched := length_queue_add_unreadable reached
  rw [staff]
  apply List.length_pos_iff.mp
  change 0 < coming.workers.length
  omega

/-- When a wait begins, the patience of a worker is what is left of the times that it is
going to be found alive. -/
theorem BeginsWait.careers (begins : BeginsWait functions limits before units pool) :
    ∃ k, Careers (units.take k) pool.log pool.workers ∧
      (pool.workers.map Worker.number).Nodup := by
  rcases begins with ⟨k, coming, text, _, reached, _, received⟩
  rcases exists_names_of_receive received with ⟨_, staff, _, names, recorded⟩
  have dispatches := (dispatches_of_foldlM_accept reached).1
  have announced := dispatches.careers.append_idle (career_announce text)
  rw [staff, recorded]
  exact ⟨k, announced.append_idle (career_receive names), dispatches.numbers_nodup⟩

theorem BeginsWait.inService (begins : BeginsWait functions limits before units pool)
    {worker : Worker} (member : worker ∈ pool.workers) : worker.InService units pool.log := by
  rcases begins.careers with ⟨k, careers, _⟩
  rcases careers.present worker member with ⟨unit, alive, listed, left, served⟩
  refine ⟨unit, alive, ?_, left, served⟩
  rw [List.getElem?_take] at listed
  split at listed
  · exact listed
  · cases listed

/-- A wait for somebody ends with the earliest of the least patient workers. -/
theorem exists_waits_letsGo {workers : List Worker} (nonempty : workers ≠ []) :
    ∃ front worker back reaping, workers = front ++ worker :: back ∧
      (∀ other, Waits workers other ↔ other = reaping) ∧
      reaping.LetsGo front worker back ∧
      reaping.log = waitLog front worker back worker.patience := by
  cases reaped : reap? workers with
  | none => exact absurd (reap?_eq_none_iff.mp reaped) nonempty
  | some reaping =>
      have waits := reap?_eq_some_iff_waits.mp reaped
      rcases exists_lettingGo_of_reap? reaped with
        ⟨front, worker, back, split, front_outlasts, back_outlasts, rfl⟩
      refine ⟨front, worker, back, .lettingGo front worker back, split, ?_,
        ⟨front_outlasts, back_outlasts, rfl, rfl⟩, rfl⟩
      intro other
      constructor
      · exact waits.unique
      · intro same
        rw [same]
        exact waits

end Pool

/-- A wait for at least one worker ends, and can end in one way only.  It lets go the
earliest of the least patient workers, after as many seconds of sleep as this worker has
patience, and the others stay in their order.  Each of those in front of it was polled
once more than each of those behind it.  A wait for nobody does not end, but no survey
comes to such a wait: wherever one begins in a run there are workers, all different, and
their patience is what is left to them by the polls so far. -/
theorem waits_let_earliest_go :
    (∀ workers : List Pool.Worker, workers ≠ [] →
      ∃ front worker back reaping, workers = front ++ worker :: back ∧
        Pool.reap? workers = some reaping ∧
        (∀ other, Pool.Waits workers other ↔ other = reaping) ∧
        reaping.LetsGo front worker back ∧
        reaping.log.sleeps = List.replicate worker.patience 1 ∧
        ((workers.map Pool.Worker.number).Nodup →
          (∀ other ∈ front, reaping.log.career other.number =
            List.replicate (worker.patience + 1) (.poll other.number true)) ∧
          reaping.log.career worker.number =
            List.replicate worker.patience (.poll worker.number true) ++
              [.poll worker.number false] ∧
          (∀ other ∈ back, reaping.log.career other.number =
            List.replicate worker.patience (.poll other.number true)))) ∧
    (∀ reaping, ¬ Pool.Waits [] reaping) ∧
    ∀ (functions : NameSet) (limits : Pool.Limits) (before : NameSet)
      (units : List CompilationUnit),
      (survey functions limits before units).stop ≠ some .deserted ∧
      ∀ pool, Pool.BeginsWait functions limits before units pool →
        pool.workers ≠ [] ∧ (pool.workers.map Pool.Worker.number).Nodup ∧
        ∀ worker ∈ pool.workers, worker.InService units pool.log := by
  refine ⟨?_, Pool.not_waits_nil, ?_⟩
  · intro workers nonempty
    rcases Pool.exists_waits_letsGo nonempty with
      ⟨front, worker, back, reaping, split, waits, letsGo, course⟩
    have reaped := Pool.reap?_eq_some_iff_waits.mpr ((waits reaping).mpr rfl)
    refine ⟨front, worker, back, reaping, split, reaped, waits, letsGo, ?_, ?_⟩
    · rw [course]
      exact Pool.sleeps_waitLog front worker back worker.patience
    · intro distinct
      rw [split] at distinct
      rw [course]
      exact Pool.career_waitLog_of_nodup distinct worker.patience
  · intro functions limits before units
    constructor
    · intro deserted
      rcases survey_stop_cases functions limits before units with done | failed | starved
      · rw [done] at deserted
        cases deserted
      · rw [failed] at deserted
        cases deserted
      · rw [starved] at deserted
        cases deserted
    · intro pool begins
      rcases begins.careers with ⟨_, _, distinct⟩
      refine ⟨begins.workers_ne_nil, distinct, ?_⟩
      intro worker member
      exact begins.inService member

/-- The second of two workers has the least patience when the third unit comes up.  A limit
of zero leads to the queue, and not to a wait for nobody. -/
theorem waits_let_earliest_go_second :
    (∃ pool reaping, Pool.BeginsWait ∅ (fun _ => 2) ∅ [{ polls := 3 }, { polls := 1 }, {}] pool ∧
      pool.workers ≠ [] ∧ Pool.reap? pool.workers = some reaping ∧
      reaping.retired.number = 1 ∧ reaping.log.sleeps = [1]) ∧
    (survey ∅ (fun _ => 0) ∅ [{}]).stop ≠ some .deserted := by
  obtain ⟨pool, begins, staff⟩ : ∃ pool,
      Pool.BeginsWait ∅ (fun _ => 2) ∅ [{ polls := 3 }, { polls := 1 }, {}] pool ∧
      pool.workers = [⟨0, 3, 0⟩, ⟨1, 1, 0⟩] :=
    ⟨_, ⟨2, _, "", by decide, rfl, by decide, rfl⟩, rfl⟩
  rcases waits_let_earliest_go with ⟨course, _, runs⟩
  have nonempty := ((runs ∅ (fun _ => 2) ∅ _).2 pool begins).1
  rcases course pool.workers nonempty with ⟨_, _, _, reaping, _, reaped, _⟩
  have known := reaped
  rw [staff] at known
  cases known
  exact ⟨⟨pool, _, begins, nonempty, reaped, rfl, rfl⟩, (runs ∅ (fun _ => 0) ∅ [{}]).1⟩

end Deadwood
