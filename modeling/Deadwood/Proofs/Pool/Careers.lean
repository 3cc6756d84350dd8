import Mathlib.Data.List.Induction
import Deadwood.Proofs.Pool.Chronicle
import Deadwood.Proofs.Pool.Waiting

namespace Deadwood

/-!
# The careers of workers

While units are accepted, the log grows by one turn a unit.  A turn begins with an
announcement, may exchange a result for the end of a worker, and always ends with a start.
The relation `Dispatches` says which logs and which workers come about in this way, and
forgets the queue and the names that were found.

Looked at from the side of one worker, such a log is simple.  The worker is started, is
found alive for some time, and is then found to have ended, unless it is still in the pool.
Its patience is what remains of the times it was going to be found alive.
-/

/-- Whether an event belongs to a wait that goes on. -/
def Event.passesTime : Event → Bool
  | .poll _ alive => alive
  | .sleep _ => true
  | _ => false

namespace Log

theorem joins_of_passesTime {log : Log} (waiting : ∀ event ∈ log, event.passesTime = true) :
    log.joins = [] := by
  apply List.filterMap_eq_nil_iff.mpr
  intro event member
  cases event with
  | join worker => cases waiting _ member
  | _ => rfl

/-- The worker is started and then found alive a number of times. -/
def serving (worker alive : Nat) : Log :=
  .start worker :: List.replicate alive (.poll worker true)

theorem serving_append_replicate (worker alive more : Nat) :
    serving worker alive ++ List.replicate more (.poll worker true) =
      serving worker (alive + more) := by
  rw [serving, List.cons_append, List.replicate_append_replicate]
  rfl

/-- A result was taken just before the wait in which this worker was found to have
ended. -/
def ReadBeforeEnd (log : Log) (worker : Nat) : Prop :=
  ∃ before names wait after,
    log = before ++ .receive names :: (wait ++ .poll worker false :: after) ∧
    ∀ event ∈ wait, event.passesTime = true

theorem ReadBeforeEnd.append {log : Log} {worker : Nat} (read : log.ReadBeforeEnd worker)
    (more : Log) : ReadBeforeEnd (log ++ more) worker := by
  rcases read with ⟨before, names, wait, after, whole, waiting⟩
  refine ⟨before, names, wait, after ++ more, ?_, waiting⟩
  rw [whole]
  simp only [List.append_assoc, List.cons_append]

theorem ReadBeforeEnd.append_left {log : Log} {worker : Nat} (read : log.ReadBeforeEnd worker)
    (earlier : Log) : ReadBeforeEnd (earlier ++ log) worker := by
  rcases read with ⟨before, names, wait, after, whole, waiting⟩
  refine ⟨earlier ++ before, names, wait, after, ?_, waiting⟩
  rw [whole, List.append_assoc]

end Log

namespace Pool

open Worker Log

variable {functions before : NameSet} {limits : Limits} {units : List CompilationUnit}
  {workers front back kept : List Worker} {worker : Worker} {reaping : Reaping}
  {log turn : Log} {pool next : Pool}

/-! ## Turns -/

/-- What is done to make room for a worker, and who stays. -/
inductive MakesRoom (workers : List Worker) : Log → List Worker → Prop where
  | unneeded : MakesRoom workers [] workers
  | exchange {names : NameSet} {reaping : Reaping} (reaped : reap? workers = some reaping) :
      MakesRoom workers (.receive names :: reaping.log) reaping.kept

/-- The log and the workers in the pool after these units were accepted. -/
inductive Dispatches (functions : NameSet) : List CompilationUnit → Log → List Worker → Prop where
  | nil : Dispatches functions [] [] []
  | accept {units : List CompilationUnit} {log turn : Log} {workers kept : List Worker}
      (earlier : Dispatches functions units log workers) (text : String)
      (room : MakesRoom workers turn kept) (unit : CompilationUnit) :
      Dispatches functions (units ++ [unit])
        (log ++ announce text ++ turn ++ [.start units.length])
        (kept ++ [forUnit units.length unit (unit.mentions? functions)])

/-- Taking a result leaves the workers alone, and shows that one was there to be taken. -/
theorem exists_names_of_receive (received : pool.receive = .ok next) :
    pool.queue ≠ [] ∧ next.workers = pool.workers ∧ next.started = pool.started ∧
      ∃ names, next.log = pool.log ++ [.receive names] := by
  rw [receive] at received
  split at received
  · cases received
  · rename_i names queue waiting
    cases received
    rw [waiting]
    exact ⟨List.cons_ne_nil names queue, rfl, rfl, names, rfl⟩

theorem exists_makesRoom {limit : Int} (made : pool.makeRoom limit = .ok next) :
    ∃ turn, MakesRoom pool.workers turn next.workers ∧ next.log = pool.log ++ turn ∧
      next.started = pool.started := by
  rw [makeRoom] at made
  split at made
  · cases received : pool.receive with
    | error halted =>
        rw [received] at made
        cases made
    | ok paid =>
        rw [received] at made
        change paid.retire = .ok next at made
        rcases exists_names_of_receive received with ⟨_, staff, same, names, taken⟩
        rw [retire] at made
        split at made
        · cases made
        · rename_i reaping reaped
          cases made
          rw [staff] at reaped
          refine ⟨.receive names :: reaping.log, .exchange reaped, ?_, same⟩
          change paid.log ++ reaping.log = _
          rw [taken, List.append_assoc, List.singleton_append]
  · cases made
    exact ⟨[], .unneeded, (List.append_nil pool.log).symm, rfl⟩

/-- The turn of a unit that is accepted. -/
theorem exists_turn_of_accept {total : Nat} {unit : CompilationUnit}
    (accepted : accept functions limits total pool unit = .ok next) :
    ∃ text turn kept, MakesRoom pool.workers turn kept ∧
      next.log = pool.log ++ announce text ++ turn ++ [.start pool.started] ∧
      next.workers = kept ++ [forUnit pool.started unit (unit.mentions? functions)] ∧
      next.started = pool.started + 1 := by
  obtain ⟨text, step⟩ : ∃ text, accept functions limits total pool unit = do
      let roomy ← (pool.record (announce text)).makeRoom (limits pool.started)
      return roomy.launch functions unit :=
    ⟨_, rfl⟩
  rw [step] at accepted
  cases made : (pool.record (announce text)).makeRoom (limits pool.started) with
  | error halted =>
      rw [made] at accepted
      cases accepted
  | ok roomy =>
      rw [made] at accepted
      cases accepted
      rcases exists_makesRoom made with ⟨turn, room, recorded, same⟩
      refine ⟨text, turn, roomy.workers, room, ?_, ?_, congrArg (· + 1) same⟩
      · change roomy.log ++ [.start roomy.started] = _
        rw [recorded, same]
        rfl
      · change roomy.workers ++ [forUnit roomy.started unit _] = _
        rw [same]
        rfl

/-- A pool that has accepted units comes about by their turns. -/
theorem dispatches_of_foldlM_accept {total : Nat}
    (accepted : units.foldlM (accept functions limits total) { used := before } = .ok pool) :
    Dispatches functions units pool.log pool.workers ∧ pool.started = units.length := by
  induction units using List.reverseRecOn generalizing pool with
  | nil =>
      cases accepted
      exact ⟨.nil, rfl⟩
  | append_singleton units unit ih =>
      rw [List.foldlM_append] at accepted
      cases reached : units.foldlM (accept functions limits total) { used := before } with
      | error halted =>
          rw [reached] at accepted
          cases accepted
      | ok earlier =>
          rw [reached] at accepted
          change [unit].foldlM (accept functions limits total) earlier = .ok pool at accepted
          rw [List.foldlM_cons] at accepted
          simp only [List.foldlM_nil, bind_pure] at accepted
          rcases ih reached with ⟨dispatches, started⟩
          rcases exists_turn_of_accept accepted with
            ⟨text, turn, kept, room, recorded, staff, counted⟩
          rw [recorded, staff, counted, started, List.length_append]
          exact ⟨.accept dispatches text room unit, rfl⟩

/-! ## Who stays -/

theorem map_number_kept_lettingGo (front : List Worker) (worker : Worker) (back : List Worker) :
    (Reaping.lettingGo front worker back).kept.map Worker.number =
      front.map Worker.number ++ back.map Worker.number := by
  rw [Reaping.lettingGo, List.map_append, List.map_map, List.map_map]
  rfl

theorem MakesRoom.numbers_sublist (room : MakesRoom workers turn kept) :
    (kept.map Worker.number).Sublist (workers.map Worker.number) := by
  cases room with
  | unneeded => exact List.Sublist.refl _
  | exchange reaped =>
      rcases exists_lettingGo_of_reap? reaped with ⟨front, worker, back, rfl, _, _, rfl⟩
      rw [map_number_kept_lettingGo, List.map_append, List.map_cons]
      exact (List.sublist_cons_self _ _).append_left _

/-- Workers are numbered by their units, and they stay in this order. -/
theorem Dispatches.numbers_sublist (dispatches : Dispatches functions units log workers) :
    (workers.map Worker.number).Sublist (List.range units.length) := by
  induction dispatches with
  | nil => exact List.Sublist.refl _
  | accept earlier _ room unit ih =>
      rw [List.map_append, List.length_append, List.length_singleton, List.range_succ]
      exact (room.numbers_sublist.trans ih).append (List.Sublist.refl _)

theorem Dispatches.numbers_nodup (dispatches : Dispatches functions units log workers) :
    (workers.map Worker.number).Nodup :=
  List.nodup_range.sublist dispatches.numbers_sublist

/-! ## Careers -/

/-- The worker was started on its unit and nothing else was done to it than to find it
alive.  Its patience is what remains of the times that this is going to happen. -/
def Worker.InService (units : List CompilationUnit) (log : Log) (worker : Worker) : Prop :=
  ∃ unit alive, units[worker.number]? = some unit ∧
    worker.patience + alive = unit.polls.toNat ∧
    log.career worker.number = serving worker.number alive

theorem Worker.InService.append_idle (served : worker.InService units log) {events : Log}
    (idle : events.career worker.number = []) : worker.InService units (log ++ events) := by
  rcases served with ⟨unit, alive, listed, left, served⟩
  refine ⟨unit, alive, listed, left, ?_⟩
  rw [career_append, served, idle, List.append_nil]

/-- Being found alive is paid for in patience. -/
theorem Worker.InService.append_polls (served : worker.InService units log) {events : Log}
    {polls : Nat} (lasting : polls ≤ worker.patience)
    (polled : events.career worker.number = List.replicate polls worker.foundAlive) :
    (worker.tire polls).InService units (log ++ events) := by
  rcases served with ⟨unit, alive, listed, left, served⟩
  refine ⟨unit, alive + polls, listed, ?_, ?_⟩
  · rw [tire_patience]
    omega
  · rw [tire_number, career_append, served, polled]
    exact serving_append_replicate _ _ _

/-- What the log tells about every worker. -/
structure Careers (units : List CompilationUnit) (log : Log) (workers : List Worker) : Prop where
  unstarted : ∀ number, units.length ≤ number → log.career number = []
  present : ∀ worker ∈ workers, worker.InService units log
  gone : ∀ number unit, units[number]? = some unit → number ∉ workers.map Worker.number →
    log.career number = serving number unit.polls.toNat ++ [.poll number false]

/-- Events that concern no worker may be added. -/
theorem Careers.append_idle (careers : Careers units log workers) {events : Log}
    (idle : ∀ number, events.career number = []) : Careers units (log ++ events) workers := by
  have same (number : Nat) : career (log ++ events) number = log.career number := by
    rw [career_append, idle, List.append_nil]
  constructor
  · intro number later
    rw [same]
    exact careers.unstarted number later
  · intro worker member
    exact (careers.present worker member).append_idle (idle worker.number)
  · intro number unit listed absent
    rw [same]
    exact careers.gone number unit listed absent

theorem career_waitLog_of_not_mem {number : Nat} (passes : Nat)
    (absent : number ∉ (front ++ worker :: back).map Worker.number) :
    (waitLog front worker back passes).career number = [] := by
  have different : worker.number ≠ number := by
    rintro rfl
    exact absent (by simp)
  have outside : number ∉ front.map Worker.number := by
    intro listed
    apply absent
    rw [List.map_append]
    exact List.mem_append_left _ listed
  rw [career_waitLog, List.count_eq_zero.mpr absent, List.count_eq_zero.mpr outside,
    if_neg different]
  rfl

/-- A wait lengthens the careers of all workers in the pool and closes one of them. -/
theorem Careers.wait (careers : Careers units log workers)
    (distinct : (workers.map Worker.number).Nodup) (reaped : reap? workers = some reaping) :
    Careers units (log ++ reaping.log) reaping.kept := by
  rcases exists_lettingGo_of_reap? reaped with
    ⟨front, worker, back, rfl, front_outlasts, back_outlasts, rfl⟩
  rcases career_waitLog_of_nodup distinct worker.patience with ⟨inFront, itself, behind⟩
  change Careers units (log ++ waitLog front worker back worker.patience) _
  constructor
  · intro number later
    rw [career_append, careers.unstarted number later, career_waitLog_of_not_mem]
    · rfl
    · intro listed
      rcases List.mem_map.mp listed with ⟨other, member, rfl⟩
      rcases careers.present other member with ⟨unit, _, known, _⟩
      exact absurd (List.getElem?_eq_some_iff.mp known).1 (Nat.not_lt.mpr later)
  · intro remaining member
    rcases List.mem_append.mp member with before | after
    · rcases List.mem_map.mp before with ⟨other, earlier, rfl⟩
      have served := careers.present other (by simp [earlier])
      exact served.append_polls (front_outlasts other earlier) (inFront other earlier)
    · rcases List.mem_map.mp after with ⟨other, later, rfl⟩
      have served := careers.present other (by simp [later])
      exact served.append_polls (back_outlasts other later) (behind other later)
  · intro number unit listed absent
    rw [map_number_kept_lettingGo] at absent
    rw [career_append]
    by_cases same : number = worker.number
    · subst same
      rcases careers.present worker (by simp) with ⟨known, alive, again, left, served⟩
      rw [listed] at again
      cases again
      rw [served, itself, ← List.append_assoc, ← left, Nat.add_comm worker.patience alive]
      exact congrArg (· ++ _) (serving_append_replicate _ _ _)
    · have unknown : number ∉ (front ++ worker :: back).map Worker.number := by
        rw [List.map_append, List.map_cons, List.mem_append, List.mem_cons]
        rw [List.mem_append] at absent
        rintro (before | here | after)
        · exact absent (Or.inl before)
        · exact same here
        · exact absent (Or.inr after)
      rw [careers.gone number unit listed unknown, career_waitLog_of_not_mem _ unknown,
        List.append_nil]

/-- A start opens the career of the next worker. -/
theorem Careers.start (careers : Careers units log workers) (unit : CompilationUnit)
    (result : Option NameSet) :
    Careers (units ++ [unit]) (log ++ [.start units.length])
      (workers ++ [forUnit units.length unit result]) := by
  have opened : career [.start units.length] units.length = [.start units.length] := by
    simp [career, Event.concerns]
  have others {number : Nat} (different : units.length ≠ number) :
      career [.start units.length] number = [] := by
    simp [career, Event.concerns, different]
  constructor
  · intro number later
    rw [List.length_append, List.length_singleton] at later
    rw [career_append, careers.unstarted number (by omega), others (by omega)]
    rfl
  · intro worker member
    rcases List.mem_append.mp member with earlier | newest
    · rcases careers.present worker earlier with ⟨known, alive, listed, left, served⟩
      have within := (List.getElem?_eq_some_iff.mp listed).1
      refine ⟨known, alive, ?_, left, ?_⟩
      · rw [List.getElem?_append_left within]
        exact listed
      · rw [career_append, served, others (by omega), List.append_nil]
    · rw [List.mem_singleton.mp newest]
      refine ⟨unit, 0, List.getElem?_concat_length, Nat.add_zero _, ?_⟩
      change career (log ++ [.start units.length]) units.length = _
      rw [career_append, careers.unstarted _ (Nat.le_refl _), opened]
      rfl
  · intro number known listed absent
    rw [List.map_append, List.mem_append, not_or] at absent
    have different : units.length ≠ number := by
      intro same
      exact absent.2 (by simp [forUnit, same])
    have within : number < units.length := by
      have bounded := (List.getElem?_eq_some_iff.mp listed).1
      rw [List.length_append, List.length_singleton] at bounded
      omega
    rw [List.getElem?_append_left within] at listed
    rw [career_append, careers.gone number known listed absent.1, others different,
      List.append_nil]

theorem Dispatches.careers (dispatches : Dispatches functions units log workers) :
    Careers units log workers := by
  induction dispatches with
  | nil =>
      constructor
      · intro number _
        rfl
      · intro worker member
        cases member
      · intro number unit listed _
        cases listed
  | accept earlier text room unit ih =>
      apply Careers.start
      have announced := ih.append_idle (career_announce text)
      cases room with
      | unneeded =>
          rw [List.append_nil]
          exact announced
      | @exchange names reaping reaped =>
          have paid := announced.append_idle (career_receive names)
          have waited := paid.wait earlier.numbers_nodup reaped
          rw [List.append_assoc, List.singleton_append] at waited
          exact waited

/-! ## Joins and reads -/

/-- A wait goes on until one worker is found to have ended. -/
theorem exists_wait_of_reap? (reaped : reap? workers = some reaping) :
    ∃ wait number, reaping.log = wait ++ [.poll number false] ∧
      ∀ event ∈ wait, event.passesTime = true := by
  rcases exists_lettingGo_of_reap? reaped with ⟨front, worker, back, _, _, _, rfl⟩
  have alive (some : List Worker) (event : Event) (member : event ∈ some.map foundAlive) :
      event.passesTime = true := by
    rcases List.mem_map.mp member with ⟨other, _, rfl⟩
    rfl
  refine ⟨_, worker.number, (List.append_assoc _ _ _).symm, ?_⟩
  intro event member
  rcases List.mem_append.mp member with passing | last
  · rcases List.mem_flatten.mp passing with ⟨pass, repeated, inside⟩
    rw [List.eq_of_mem_replicate repeated, List.mem_append, List.mem_singleton] at inside
    rcases inside with polled | asleep
    · exact alive _ event polled
    · rw [asleep]
      rfl
  · exact alive front event last

/-- Nobody is joined while units are accepted. -/
theorem Dispatches.joins_eq_nil (dispatches : Dispatches functions units log workers) :
    log.joins = [] := by
  induction dispatches with
  | nil => rfl
  | accept _ text room unit ih =>
      rw [joins_append, joins_append, joins_append, ih, joins_announce]
      cases room with
      | unneeded => rfl
      | @exchange names reaping reaped =>
          rcases exists_wait_of_reap? reaped with ⟨wait, number, course, waiting⟩
          have quiet : joins (.receive names :: wait) = [] := by
            change joins wait = []
            exact joins_of_passesTime waiting
          rw [course, ← List.cons_append, joins_append, quiet]
          rfl

/-- Every end of a worker is paid for by a result that was taken just before. -/
theorem Dispatches.readBeforeEnd (dispatches : Dispatches functions units log workers)
    {number : Nat} (ended : .poll number false ∈ log) : log.ReadBeforeEnd number := by
  induction dispatches with
  | nil => cases ended
  | @accept units log turn _ _ earlier text room unit ih =>
      rw [List.mem_append, List.mem_append, List.mem_append] at ended
      rcases ended with ((before | announced) | now) | started
      · rw [List.append_assoc, List.append_assoc]
        exact (ih before).append _
      · rcases List.mem_map.mp announced with ⟨_, _, said⟩
        cases said
      · cases room with
        | unneeded => cases now
        | @exchange names reaping reaped =>
            rcases exists_wait_of_reap? reaped with ⟨wait, other, course, waiting⟩
            rw [course, List.mem_cons, List.mem_append, List.mem_singleton] at now
            rcases now with taken | passed | last
            · cases taken
            · cases waiting _ passed
            · cases last
              rw [course]
              refine ReadBeforeEnd.append (ReadBeforeEnd.append_left ?_ _) _
              exact ⟨[], names, wait, [], rfl, waiting⟩
      · rw [List.mem_singleton] at started
        cases started

end Pool
end Deadwood
