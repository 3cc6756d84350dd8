import Deadwood.Proofs.Pool.Careers
import Deadwood.Proofs.Survey.Delivery

namespace Deadwood

/-!
# The lives of workers

A completed survey leaves no worker behind.  Some are found to have ended while there are
still units to accept, and their places go to others.  The rest are joined at the end.
Workers are removed from the middle of a list while it is being gone through, so it is
not obvious that none is passed over, asked again after its end, or joined twice.

The log shows that nothing of the kind happens.  It consists of two phases, and each
worker occurs in it with a career of one of two forms.  Every career costs one result,
taken before the wait that closes it or after the join.
-/

namespace Log

/-- Workers are joined in turn, and a result is taken after each of them. -/
def collecting (turns : List (Nat × NameSet)) : Log :=
  turns.flatMap fun turn => [.join turn.1, .receive turn.2]

theorem joins_collecting (turns : List (Nat × NameSet)) :
    (collecting turns).joins = turns.map Prod.fst := by
  induction turns with
  | nil => rfl
  | cons turn turns ih =>
      rw [collecting, List.flatMap_cons, joins_append, List.map_cons]
      exact congrArg (turn.1 :: ·) ih

theorem starts_collecting (turns : List (Nat × NameSet)) : (collecting turns).starts = [] := by
  induction turns with
  | nil => rfl
  | cons turn turns ih =>
      rw [collecting, List.flatMap_cons, starts_append]
      exact ih

/-- Whoever is not among those joined is left alone by the second phase. -/
theorem career_collecting (turns : List (Nat × NameSet)) (worker : Nat) :
    (collecting turns).career worker =
      List.replicate ((turns.map Prod.fst).count worker) (.join worker) := by
  induction turns with
  | nil => rfl
  | cons turn turns ih =>
      rw [collecting, List.flatMap_cons, career_append, List.map_cons, List.count_cons]
      change _ ++ (collecting turns).career worker = _
      rw [ih]
      by_cases same : turn.1 = worker
      · simp [career, Event.concerns, same, List.replicate_succ]
      · simp [career, Event.concerns, same]

theorem poll_not_mem_collecting (turns : List (Nat × NameSet)) (worker : Nat) (alive : Bool) :
    .poll worker alive ∉ collecting turns := by
  intro member
  rcases List.mem_flatMap.mp member with ⟨turn, _, inside⟩
  rw [List.mem_cons, List.mem_singleton] at inside
  rcases inside with joined | taken
  · cases joined
  · cases taken

/-- In the second phase every join is followed by a result. -/
theorem exists_read_after_join {turns : List (Nat × NameSet)} {worker : Nat}
    (joined : worker ∈ turns.map Prod.fst) :
    ∃ before names after,
      collecting turns = before ++ .join worker :: .receive names :: after := by
  rcases List.mem_map.mp joined with ⟨⟨_, names⟩, member, rfl⟩
  rcases List.append_of_mem member with ⟨front, back, rfl⟩
  refine ⟨collecting front, names, collecting back, ?_⟩
  rw [collecting, List.flatMap_append, List.flatMap_cons]
  rfl

/-- What a log tells about the lives of the workers on these units. -/
structure RecordsLives (units : List CompilationUnit) (log : Log) : Prop where
  started : log.starts = List.range units.length
  /-- A worker is found to have ended after all the polls that it was going to answer, or
  it is joined. -/
  ended : ∀ (number : Nat) (unit : CompilationUnit), units[number]? = some unit →
    log.career number = serving number unit.polls.toNat ++ [.poll number false] ∨
    ∃ alive ≤ unit.polls.toNat, log.career number = serving number alive ++ [.join number]
  nobody_else : ∀ number, units.length ≤ number → log.career number = []
  joined_in_order : log.joins.Pairwise (· < ·)
  joined_last : ∃ first last, log = first ++ last ∧ joins first = [] ∧ starts last = []
  reads : log.received.length = units.length
  read_before_end : ∀ number, .poll number false ∈ log → log.ReadBeforeEnd number
  read_after_join : ∀ number ∈ log.joins,
    ∃ before names after, log = before ++ .join number :: .receive names :: after

end Log

namespace Pool

variable {workers : List Worker} {worker : Worker} {pool next : Pool}

theorem exists_log_of_collect (collected : pool.collect worker = .ok next) :
    ∃ names, next.log = pool.log ++ [.join worker.number, .receive names] := by
  rw [collect] at collected
  split at collected
  · rcases exists_names_of_receive collected with ⟨_, _, _, names, taken⟩
    refine ⟨names, taken.trans ?_⟩
    exact List.append_assoc pool.log [.join worker.number] [.receive names]
  · cases collected

theorem exists_collecting_of_foldlM (collected : workers.foldlM collect pool = .ok next) :
    ∃ turns, turns.map Prod.fst = workers.map Worker.number ∧
      next.log = pool.log ++ Log.collecting turns := by
  induction workers generalizing pool with
  | nil =>
      cases collected
      exact ⟨[], rfl, (List.append_nil _).symm⟩
  | cons worker workers ih =>
      rw [List.foldlM_cons] at collected
      cases step : pool.collect worker with
      | error halted =>
          rw [step] at collected
          cases collected
      | ok paid =>
          rw [step] at collected
          rcases exists_log_of_collect step with ⟨names, recorded⟩
          rcases ih collected with ⟨turns, joined, rest⟩
          refine ⟨(worker.number, names) :: turns, ?_, ?_⟩
          · rw [List.map_cons, List.map_cons, joined]
          · rw [rest, recorded, List.append_assoc]
            rfl

/-! ## Both phases -/

variable {functions : NameSet} {units : List CompilationUnit} {first : Log}
  {turns : List (Nat × NameSet)}

/-- Whoever is in the pool at the end of the first phase is joined in the second. -/
theorem Dispatches.career_append_collecting (dispatches : Dispatches functions units first workers)
    (joined : turns.map Prod.fst = workers.map Worker.number) (number : Nat) :
    (first ++ Log.collecting turns).career number = first.career number ++
      if number ∈ workers.map Worker.number then [.join number] else [] := by
  rw [Log.career_append, Log.career_collecting, joined]
  by_cases present : number ∈ workers.map Worker.number
  · rw [if_pos present, List.count_eq_one_of_mem dispatches.numbers_nodup present]
    rfl
  · rw [if_neg present, List.count_eq_zero.mpr present]
    rfl

/-- The life of a worker ends in one of the two phases. -/
theorem Dispatches.career_cases (dispatches : Dispatches functions units first workers)
    (joined : turns.map Prod.fst = workers.map Worker.number) {number : Nat}
    {unit : CompilationUnit} (listed : units[number]? = some unit) :
    (first ++ Log.collecting turns).career number =
      Log.serving number unit.polls.toNat ++ [.poll number false] ∨
    ∃ alive ≤ unit.polls.toNat, (first ++ Log.collecting turns).career number =
      Log.serving number alive ++ [.join number] := by
  rw [dispatches.career_append_collecting joined]
  by_cases present : number ∈ workers.map Worker.number
  · rw [if_pos present]
    rcases List.mem_map.mp present with ⟨worker, member, rfl⟩
    rcases dispatches.careers.present worker member with ⟨known, alive, again, left, served⟩
    rw [listed] at again
    cases again
    refine Or.inr ⟨alive, by omega, ?_⟩
    rw [served]
  · rw [if_neg present, dispatches.careers.gone number unit listed present]
    exact Or.inl (List.append_nil _)

theorem Dispatches.career_of_length_le (dispatches : Dispatches functions units first workers)
    (joined : turns.map Prod.fst = workers.map Worker.number) {number : Nat}
    (later : units.length ≤ number) : (first ++ Log.collecting turns).career number = [] := by
  have absent : number ∉ workers.map Worker.number := by
    intro present
    have started := dispatches.numbers_sublist.subset present
    exact absurd (List.mem_range.mp started) (Nat.not_lt.mpr later)
  rw [dispatches.career_append_collecting joined, if_neg absent,
    dispatches.careers.unstarted number later]
  rfl

end Pool

variable {functions before : NameSet} {limits : Pool.Limits} {units : List CompilationUnit}

/-- The log of a completed survey has two phases. -/
theorem exists_phases_of_completed
    (completed : (survey functions limits before units).stop = none) :
    ∃ first workers turns, Pool.Dispatches functions units first workers ∧
      turns.map Prod.fst = workers.map Pool.Worker.number ∧
      (survey functions limits before units).log = first ++ Log.collecting turns := by
  cases dispatched : Pool.dispatch functions limits before units with
  | error halted =>
      rw [survey, dispatched] at completed
      cases completed
  | ok pool =>
      have same := (survey_of_dispatch dispatched).1
      rw [same] at completed ⊢
      cases collected : pool.workers.foldlM Pool.collect pool with
      | error halted =>
          rw [collected] at completed
          cases completed
      | ok next =>
          rcases Pool.exists_collecting_of_foldlM collected with ⟨turns, joined, recorded⟩
          exact ⟨pool.log, pool.workers, turns, (Pool.dispatches_of_foldlM_accept dispatched).1,
            joined, recorded⟩

/-- In the log of a completed survey every worker is started once, in the order of the
units.  It is then either found to have ended, after which it does not occur again, or it
is never found to have ended and joined once, after all starts and in order.  There is one
result for each worker, taken just before the wait that finds it ended, or right after it
is joined. -/
theorem completed_survey_records_lives
    (completed : (survey functions limits before units).stop = none) :
    (survey functions limits before units).log.RecordsLives units := by
  have sustained := (survey_stop_eq_none_iff.mp completed).1
  have chronicle := survey_chronicle_of_sustained before sustained
  rcases exists_phases_of_completed completed with
    ⟨first, workers, turns, dispatches, joined, whole⟩
  have joins : (survey functions limits before units).log.joins =
      workers.map Pool.Worker.number := by
    rw [whole, Log.joins_append, dispatches.joins_eq_nil, Log.joins_collecting, joined]
    rfl
  constructor
  · exact chronicle.starts_eq
  · intro number unit listed
    rw [whole]
    exact dispatches.career_cases joined listed
  · intro number later
    rw [whole]
    exact dispatches.career_of_length_le joined later
  · rw [joins]
    exact List.pairwise_lt_range.sublist dispatches.numbers_sublist
  · exact ⟨first, Log.collecting turns, whole, dispatches.joins_eq_nil,
      Log.starts_collecting turns⟩
  · exact (survey_received_of_completed completed).1
  · intro number ended
    rw [whole] at ended ⊢
    rcases List.mem_append.mp ended with earlier | later
    · exact (dispatches.readBeforeEnd earlier).append _
    · exact absurd later (Log.poll_not_mem_collecting turns number false)
  · intro number present
    rw [joins, ← joined] at present
    rcases Log.exists_read_after_join present with ⟨front, names, back, last⟩
    refine ⟨first ++ front, names, back, ?_⟩
    rw [whole, last, List.append_assoc]

/-- Four units, and workers that are found alive up to four times. -/
def fourUnits : List CompilationUnit :=
  [{ polls := 2 }, { polls := 1 }, { polls := 4 }, {}]

/-- With room for two workers, the second one makes place for the third and then the first
one for the fourth. -/
theorem completed_survey_records_lives_fourUnits :
    (survey ∅ (fun _ => 2) ∅ fourUnits).stop = none ∧
    (survey ∅ (fun _ => 2) ∅ fourUnits).log.reaped = [1, 0] ∧
    (survey ∅ (fun _ => 2) ∅ fourUnits).log.joins = [2, 3] ∧
    (survey ∅ (fun _ => 2) ∅ fourUnits).log.RecordsLives fourUnits := by
  have evaluated : (survey ∅ (fun _ => 2) ∅ fourUnits).stop = none ∧
      (survey ∅ (fun _ => 2) ∅ fourUnits).log.reaped = [1, 0] ∧
      (survey ∅ (fun _ => 2) ∅ fourUnits).log.joins = [2, 3] := by decide +kernel
  rcases evaluated with ⟨completed, reaped, joined⟩
  exact ⟨completed, reaped, joined, completed_survey_records_lives completed⟩

end Deadwood
