import Deadwood.Proofs.Log.Views
import Deadwood.Proofs.Pool.Accounting
import Deadwood.Survey

namespace Deadwood

/-!
# What the log of a pool tells

The log is written only to be looked at: no operation of the pool reads it.  It is
nevertheless a faithful record of the pool, and this is proved here for every
state that a run can come to, also for those in which it halts.  The workers that
were started and not found ended are those in the pool.  The results that were
taken, followed by those that wait, are the results that were sent.  The used
names are those known before and those of the results taken.

Nothing is said here about when a run halts; the accounts of the pool decide this.
-/

namespace Log

/-- Exactly these workers are found to have ended.  None is started, and no result
is taken. -/
structure Reaps (events : Log) (ended : List Nat) : Prop where
  starts_eq : events.starts = []
  reaped_eq : events.reaped = ended
  received_eq : events.received = []

theorem Reaps.append {events more : Log} {ended others : List Nat} (first : events.Reaps ended)
    (second : more.Reaps others) : Reaps (events ++ more) (ended ++ others) := by
  constructor
  · rw [starts_append, first.starts_eq, second.starts_eq, List.append_nil]
  · rw [reaped_append, first.reaped_eq, second.reaped_eq]
  · rw [received_append, first.received_eq, second.received_eq, List.append_nil]

theorem reaps_announce (text : String) : Reaps (announce text) [] := by
  constructor <;> exact filterMap_announce (fun _ => rfl) text

end Log

namespace Pool

/-! ## The log of a wait -/

theorem reaps_map_foundAlive (workers : List Worker) :
    Log.Reaps (workers.map Worker.foundAlive) [] := by
  constructor <;>
    exact List.filterMap_map.trans (List.filterMap_eq_nil_iff.mpr fun _ _ => rfl)

/-- In a wait one worker is found to have ended, and this only once. -/
theorem waitLog_reaps (front : List Worker) (worker : Worker) (back : List Worker)
    (passes : Nat) : (waitLog front worker back passes).Reaps [worker.number] := by
  induction passes with
  | zero =>
      have ended : Log.Reaps [.poll worker.number false] [worker.number] := ⟨rfl, rfl, rfl⟩
      exact (reaps_map_foundAlive front).append ended
  | succ passes ih =>
      have asleep : Log.Reaps [.sleep 1] [] := ⟨rfl, rfl, rfl⟩
      rw [waitLog_succ]
      exact ((reaps_map_foundAlive _).append asleep).append ih

theorem reap?_reaps {workers : List Worker} {reaping : Reaping}
    (reaped : reap? workers = some reaping) : reaping.log.Reaps [reaping.retired.number] := by
  rcases exists_lettingGo_of_reap? reaped with ⟨front, worker, back, _, _, _, rfl⟩
  exact waitLog_reaps front worker back worker.patience

/-! ## The record of a pool -/

/-- The log agrees with the pool, after these units were accepted.  The results
that were taken are the first of those sent, as the others wait in the queue. -/
structure Chronicle (functions before : NameSet) (units : List CompilationUnit) (pool : Pool) :
    Prop where
  started_eq : pool.started = units.length
  starts_eq : pool.log.starts = List.range units.length
  staff_perm : (pool.log.reaped ++ pool.workers.map Worker.number).Perm
    (List.range units.length)
  delivered_eq : pool.log.received ++ pool.queue = results functions units
  mem_used : ∀ name, name ∈ pool.used ↔
    name ∈ before ∨ ∃ found ∈ pool.log.received, name ∈ found

variable {functions before : NameSet} {units : List CompilationUnit} {pool : Pool}

theorem Chronicle.fresh (functions before : NameSet) :
    Chronicle functions before [] { used := before } := by
  constructor
  · rfl
  · rfl
  · exact List.Perm.refl _
  · rfl
  · intro name
    simp [Log.received]

/-- Workers that are found to have ended move from the pool to the record. -/
theorem Chronicle.of_reaps (chronicle : Chronicle functions before units pool) {next : Pool}
    {events : Log} {ended : List Nat} (reaps : events.Reaps ended)
    (log : next.log = pool.log ++ events) (started : next.started = pool.started)
    (queue : next.queue = pool.queue) (used : next.used = pool.used)
    (moved : (ended ++ next.workers.map Worker.number).Perm (pool.workers.map Worker.number)) :
    Chronicle functions before units next := by
  have received : next.log.received = pool.log.received := by
    rw [log, Log.received_append, reaps.received_eq, List.append_nil]
  constructor
  · rw [started]
    exact chronicle.started_eq
  · rw [log, Log.starts_append, reaps.starts_eq, List.append_nil]
    exact chronicle.starts_eq
  · rw [log, Log.reaped_append, reaps.reaped_eq, List.append_assoc]
    exact (moved.append_left _).trans chronicle.staff_perm
  · rw [received, queue]
    exact chronicle.delivered_eq
  · rw [received, used]
    exact chronicle.mem_used

/-- Announcements, joins and waits in vain are recorded without any effect. -/
theorem Chronicle.record (chronicle : Chronicle functions before units pool) {events : Log}
    (idle : events.Reaps []) : Chronicle functions before units (pool.record events) := by
  exact chronicle.of_reaps idle rfl rfl rfl rfl (List.Perm.refl _)

theorem Chronicle.receive (chronicle : Chronicle functions before units pool) :
    Chronicle functions before units (Survey.ofResult pool.receive).pool := by
  unfold Pool.receive
  cases waiting : pool.queue with
  | nil => exact chronicle.record ⟨rfl, rfl, rfl⟩
  | cons names queue =>
      have grown : Log.received (pool.log ++ [.receive names]) = pool.log.received ++ [names] :=
        Log.received_append _ _
      constructor
      · exact chronicle.started_eq
      · change Log.starts (pool.log ++ [.receive names]) = _
        rw [Log.starts_append, chronicle.starts_eq]
        exact List.append_nil _
      · change (Log.reaped (pool.log ++ [.receive names]) ++ pool.workers.map Worker.number).Perm _
        rw [Log.reaped_append]
        simpa [Log.reaped] using chronicle.staff_perm
      · change Log.received (pool.log ++ [.receive names]) ++ queue = _
        rw [grown, List.append_assoc, List.singleton_append, ← waiting, chronicle.delivered_eq]
      · intro name
        change name ∈ pool.used ∪ names ↔
          _ ∨ ∃ found ∈ Log.received (pool.log ++ [.receive names]), name ∈ found
        rw [grown, Std.ExtTreeSet.mem_union_iff, chronicle.mem_used]
        simp only [List.mem_append, List.mem_singleton, or_and_right, exists_or, exists_eq_left,
          or_assoc]

theorem Chronicle.retire (chronicle : Chronicle functions before units pool) :
    Chronicle functions before units (Survey.ofResult pool.retire).pool := by
  unfold Pool.retire
  by_cases staffed : pool.workers = []
  · rw [reap?_eq_none_iff.mpr staffed]
    exact chronicle
  · rcases exists_reap?_letsGo staffed with ⟨reaping, front, worker, back, reaped, split, letsGo⟩
    have numbers : reaping.kept.map Worker.number =
        front.map Worker.number ++ back.map Worker.number := by
      rw [letsGo.kept_eq, List.map_append, List.map_map, List.map_map]
      rfl
    have moved : ([reaping.retired.number] ++ reaping.kept.map Worker.number).Perm
        (pool.workers.map Worker.number) := by
      rw [letsGo.retired_eq, Worker.tire_number, List.singleton_append, numbers, split,
        List.map_append, List.map_cons]
      exact List.perm_middle.symm
    rw [reaped]
    exact chronicle.of_reaps (reap?_reaps reaped) rfl rfl rfl rfl moved

theorem Chronicle.makeRoom (chronicle : Chronicle functions before units pool) (limit : Int) :
    Chronicle functions before units (Survey.ofResult (pool.makeRoom limit)).pool := by
  unfold Pool.makeRoom
  by_cases full : limit ≤ pool.running
  · rw [if_pos full]
    exact Survey.pool_ofResult_bind chronicle.receive fun _ received => received.retire
  · rw [if_neg full]
    exact chronicle

theorem Chronicle.launch (chronicle : Chronicle functions before units pool)
    (unit : CompilationUnit) :
    Chronicle functions before (units ++ [unit]) (pool.launch functions unit) := by
  have more : List.range (units ++ [unit]).length = List.range units.length ++ [units.length] := by
    rw [List.length_append, List.length_singleton, List.range_succ]
  have idle : Log.reaped [.start pool.started] = [] := rfl
  have silent : Log.received [.start pool.started] = [] := rfl
  constructor
  · rw [List.length_append, ← chronicle.started_eq]
    rfl
  · change Log.starts (pool.log ++ [.start pool.started]) = _
    rw [Log.starts_append, chronicle.starts_eq, more, ← chronicle.started_eq]
    rfl
  · change (Log.reaped (pool.log ++ [.start pool.started]) ++
      (pool.workers ++ [Worker.forUnit pool.started unit _]).map Worker.number).Perm _
    rw [Log.reaped_append, idle, List.append_nil, List.map_append, ← List.append_assoc, more,
      ← chronicle.started_eq]
    exact (chronicle.started_eq ▸ chronicle.staff_perm).append_right [pool.started]
  · change Log.received (pool.log ++ [.start pool.started]) ++
      (pool.queue ++ (unit.mentions? functions).toList) = _
    rw [Log.received_append, silent, List.append_nil, ← List.append_assoc, chronicle.delivered_eq,
      results_append_singleton]
  · change ∀ name, name ∈ pool.used ↔
      _ ∨ ∃ found ∈ Log.received (pool.log ++ [.start pool.started]), name ∈ found
    rw [Log.received_append, silent, List.append_nil]
    exact chronicle.mem_used

/-- A unit that is accepted is entered, and a halt on the way leaves the record as
it was. -/
theorem Chronicle.accept (chronicle : Chronicle functions before units pool) (limits : Limits)
    (total : Nat) (unit : CompilationUnit) :
    (∃ next, Pool.accept functions limits total pool unit = .ok next ∧
      Chronicle functions before (units ++ [unit]) next) ∨
    ∃ halted, Pool.accept functions limits total pool unit = .error halted ∧
      Chronicle functions before units halted.pool := by
  obtain ⟨text, step⟩ : ∃ text, Pool.accept functions limits total pool unit = do
      let roomy ← (pool.record (Log.announce text)).makeRoom (limits pool.started)
      return roomy.launch functions unit :=
    ⟨_, rfl⟩
  have roomy := (chronicle.record (Log.reaps_announce text)).makeRoom (limits pool.started)
  rw [step]
  cases made : (pool.record (Log.announce text)).makeRoom (limits pool.started) with
  | error halted =>
      rw [made] at roomy
      exact Or.inr ⟨halted, rfl, roomy⟩
  | ok next =>
      rw [made] at roomy
      exact Or.inl ⟨_, rfl, roomy.launch unit⟩

/-- However far the acceptance of some units gets, the units accepted are the first
of them. -/
theorem Chronicle.foldlM_accept (chronicle : Chronicle functions before units pool)
    (limits : Limits) (total : Nat) (coming : List CompilationUnit) :
    ∃ accepted, accepted <+: coming ∧ Chronicle functions before (units ++ accepted)
      (Survey.ofResult (coming.foldlM (Pool.accept functions limits total) pool)).pool := by
  induction coming generalizing units pool with
  | nil => exact ⟨[], List.nil_prefix, by rw [List.append_nil]; exact chronicle⟩
  | cons unit coming ih =>
      rw [List.foldlM_cons]
      rcases chronicle.accept limits total unit with ⟨next, step, entered⟩ |
        ⟨halted, stuck, kept⟩
      · rcases ih entered with ⟨accepted, earlier, chronicle⟩
        refine ⟨unit :: accepted, (List.prefix_cons_inj unit).mpr earlier, ?_⟩
        rw [List.append_assoc, List.singleton_append] at chronicle
        rw [step]
        exact chronicle
      · rw [stuck]
        exact ⟨[], List.nil_prefix, by rw [List.append_nil]; exact kept⟩

theorem Chronicle.collect (chronicle : Chronicle functions before units pool) (worker : Worker) :
    Chronicle functions before units (Survey.ofResult (pool.collect worker)).pool := by
  have joined : Chronicle functions before units (pool.record [.join worker.number]) :=
    chronicle.record ⟨rfl, rfl, rfl⟩
  unfold Pool.collect
  by_cases proper : worker.exitCode = 0
  · simp only [if_pos proper]
    exact joined.receive
  · simp only [if_neg proper]
    exact joined.record (Log.reaps_announce _)

end Pool

/-- The log of a survey agrees with the pool that is left, however the survey
ends. -/
theorem survey_chronicle (functions : NameSet) (limits : Pool.Limits) (before : NameSet)
    (units : List CompilationUnit) :
    ∃ accepted, accepted <+: units ∧
      Pool.Chronicle functions before accepted (survey functions limits before units).pool := by
  have dispatched := (Pool.Chronicle.fresh functions before).foldlM_accept limits units.length units
  unfold survey Pool.dispatch
  refine Survey.pool_ofResult_bind (P := fun pool => ∃ accepted, accepted <+: units ∧
    Pool.Chronicle functions before accepted pool) ?_ ?_
  · simpa only [List.nil_append] using dispatched
  · rintro pool ⟨accepted, earlier, chronicle⟩
    refine ⟨accepted, earlier, ?_⟩
    exact Survey.pool_ofResult_foldlM (fun _ worker kept => kept.collect worker) _ chronicle

end Deadwood
