import Mathlib.Data.List.Forall2
import Deadwood.Proofs.Pool.Chronicle
import Deadwood.Proofs.Survey.Union

namespace Deadwood

/-!
# What a survey takes before it ends

A survey may end in three ways, and it takes results in two loops that know nothing
of each other.  Whatever the limits and however the survey ends, the results that it
has taken are those of the first readable units, in the order of the units and each
of them once.  What it adds to the used names are these results and nothing else.

A unit is not tied to a moment at which its result is taken.  Unreadable units send
nothing and are passed over, which is why a survey that meets one cannot complete.
-/

namespace Pool

/-- The worker on a readable unit sends the functions that the unit refers to, and
nobody else sends anything. -/
theorem forall₂_results (functions : NameSet) (units : List CompilationUnit) :
    List.Forall₂
      (fun unit found => ∀ name, name ∈ found ↔ name ∈ functions ∧ unit.Refers name)
      (units.filter fun unit => unit.Readable) (results functions units) := by
  induction units with
  | nil => exact List.Forall₂.nil
  | cons unit units ih =>
      have readable : (unit.mentions? functions).isSome = true ↔ unit.Readable :=
        CompilationUnit.mentions?_isSome_iff functions
      cases sent : unit.mentions? functions with
      | none =>
          have unreadable : ¬ unit.Readable := by
            intro present
            rw [← readable, sent] at present
            cases present
          rw [List.filter_cons_of_neg (by simpa using unreadable), results,
            List.filterMap_cons_none sent]
          exact ih
      | some found =>
          rw [sent] at readable
          rw [List.filter_cons_of_pos (by simpa using readable.mp rfl), results,
            List.filterMap_cons_some sent]
          exact List.Forall₂.cons (fun name => CompilationUnit.mem_of_mentions? sent) ih

/-! ## Waiting in vain -/

/-- Wherever a result is waited for in vain, none is in the queue. -/
def StarvesDrained (result : Except Halted Pool) : Prop :=
  ∀ pool, result = .error ⟨.starved, pool⟩ → pool.queue = []

theorem StarvesDrained.bind {first : Except Halted Pool} {second : Pool → Except Halted Pool}
    (now : StarvesDrained first) (later : ∀ pool, StarvesDrained (second pool)) :
    StarvesDrained (first >>= second) := by
  cases first with
  | error halted => exact now
  | ok pool => exact later pool

theorem StarvesDrained.foldlM {α : Type} {step : Pool → α → Except Halted Pool}
    (each : ∀ pool item, StarvesDrained (step pool item)) (items : List α) (pool : Pool) :
    StarvesDrained (items.foldlM step pool) := by
  induction items generalizing pool with
  | nil =>
      intro halted impossible
      cases impossible
  | cons item items ih =>
      rw [List.foldlM_cons]
      exact (each pool item).bind ih

theorem StarvesDrained.queue_eq_nil {result : Except Halted Pool} (drained : StarvesDrained result)
    (starved : (Survey.ofResult result).stop = some .starved) :
    (Survey.ofResult result).pool.queue = [] := by
  cases result with
  | ok pool => cases starved
  | error halted =>
      rcases halted with ⟨stop, pool⟩
      cases starved
      exact drained pool rfl

theorem starvesDrained_receive (pool : Pool) : StarvesDrained pool.receive := by
  intro halted stuck
  unfold receive at stuck
  cases waiting : pool.queue with
  | nil =>
      rw [waiting] at stuck
      cases stuck
      exact waiting
  | cons names queue =>
      rw [waiting] at stuck
      cases stuck

theorem starvesDrained_retire (pool : Pool) : StarvesDrained pool.retire := by
  intro halted stuck
  unfold retire at stuck
  split at stuck <;> cases stuck

theorem starvesDrained_accept (functions : NameSet) (limits : Limits) (total : Nat) (pool : Pool)
    (unit : CompilationUnit) : StarvesDrained (accept functions limits total pool unit) := by
  apply StarvesDrained.bind
  · unfold makeRoom
    split
    · exact (starvesDrained_receive _).bind starvesDrained_retire
    · intro halted impossible
      cases impossible
  · intro roomy halted impossible
    cases impossible

theorem starvesDrained_collect (pool : Pool) (worker : Worker) :
    StarvesDrained (pool.collect worker) := by
  unfold collect
  by_cases proper : worker.exitCode = 0
  · simp only [if_pos proper]
    exact starvesDrained_receive _
  · simp only [if_neg proper]
    intro halted impossible
    cases impossible

end Pool

variable {functions before : NameSet} {limits : Pool.Limits} {units : List CompilationUnit}

theorem survey_queue_of_starved
    (starved : (survey functions limits before units).stop = some .starved) :
    (survey functions limits before units).pool.queue = [] := by
  apply Pool.StarvesDrained.queue_eq_nil _ starved
  apply Pool.StarvesDrained.bind
  · exact Pool.StarvesDrained.foldlM (Pool.starvesDrained_accept functions limits _) units _
  · intro pool
    exact Pool.StarvesDrained.foldlM Pool.starvesDrained_collect pool.workers pool

/-! ## The results taken -/

/-- A survey that does not get stuck at a unit has a record of all units. -/
theorem survey_chronicle_of_sustained (before : NameSet)
    (sustained : Pool.Sustained functions limits units) :
    Pool.Chronicle functions before units (survey functions limits before units).pool := by
  rcases survey_chronicle functions limits before units with ⟨accepted, earlier, chronicle⟩
  have all : accepted = units := by
    apply earlier.eq_of_length
    rw [← chronicle.started_eq, survey_started_of_sustained before sustained]
  rw [all] at chronicle
  exact chronicle

theorem survey_received_of_completed
    (completed : (survey functions limits before units).stop = none) :
    (survey functions limits before units).log.received.length = units.length ∧
      (survey functions limits before units).pool.queue = [] := by
  rcases survey_stop_eq_none_iff.mp completed with ⟨sustained, audible, proper⟩
  have account := (survey_of_proper sustained proper audible).2
  have empty : (survey functions limits before units).pool.queue = [] := by
    rw [account.queue_eq, List.drop_length]
  have delivered := (survey_chronicle_of_sustained before sustained).delivered_eq
  have size := Pool.length_results_add_silent functions units
  rw [empty, List.append_nil] at delivered
  rw [audible, Nat.add_zero, ← delivered] at size
  exact ⟨size, empty⟩

/-- What can be said of the results that a survey of these units has taken. -/
structure Survey.Delivers (functions before : NameSet) (units : List CompilationUnit)
    (surveyed : Survey) : Prop where
  stop_cases : surveyed.stop = none ∨ surveyed.stop = some .workerFailed ∨
    surveyed.stop = some .starved
  /-- The results are those of as many readable units, counted from the first. -/
  in_order : List.Forall₂
    (fun unit found => ∀ name, name ∈ found ↔ name ∈ functions ∧ unit.Refers name)
    ((units.filter fun unit => unit.Readable).take surveyed.log.received.length)
    surveyed.log.received
  mem_used : ∀ name, name ∈ surveyed.used ↔
    name ∈ before ∨ ∃ found ∈ surveyed.log.received, name ∈ found
  /-- Nothing is held back from a survey that waits in vain. -/
  drained : surveyed.stop = some .starved → surveyed.pool.queue = []
  complete : surveyed.stop = none → surveyed.log.received.length = units.length ∧
    (∀ unit ∈ units, unit.Readable) ∧ surveyed.pool.queue = []

/-- However a survey ends, it has lost, repeated and invented no result. -/
theorem survey_delivers (functions : NameSet) (limits : Pool.Limits) (before : NameSet)
    (units : List CompilationUnit) :
    (survey functions limits before units).Delivers functions before units := by
  rcases survey_chronicle functions limits before units with ⟨accepted, earlier, chronicle⟩
  have first : (survey functions limits before units).log.received <+:
      Pool.results functions units := by
    have taken : (survey functions limits before units).log.received <+:
        Pool.results functions accepted := ⟨_, chronicle.delivered_eq⟩
    exact taken.trans (earlier.filterMap _)
  constructor
  · exact survey_stop_cases functions limits before units
  · have sent := List.forall₂_take (survey functions limits before units).log.received.length
      (Pool.forall₂_results functions units)
    rw [← List.prefix_iff_eq_take.mp first] at sent
    exact sent
  · exact chronicle.mem_used
  · exact survey_queue_of_starved
  · intro completed
    rcases survey_received_of_completed completed with ⟨size, empty⟩
    exact ⟨size, (used_of_survey_completed completed).1, empty⟩

end Deadwood
