import Deadwood.Event

namespace Deadwood

/-!
# Views of a log

A log holds events of all kinds, and a statement about it is mostly about one kind.  The
views below pick out what was done to workers, to the queue, or to files, and keep its
order.  Each of them goes through a log piece by piece, and none of them sees what was
only said to the user.
-/

/-- Whether something was done to this worker. -/
def Event.concerns (worker : Nat) : Event → Bool
  | .start number => number = worker
  | .poll number _ => number = worker
  | .join number => number = worker
  | _ => false

/-- Whether a source file is read, or its entry read or written. -/
def Event.handlesFile : Event → Bool
  | .parse _ => true
  | .save _ => true
  | .load _ => true
  | _ => false

namespace Log

/-- Announcing records nothing but lines for the user. -/
theorem exists_say_of_mem_announce {event : Event} {text : String}
    (said : event ∈ announce text) : ∃ line, event = .say line := by
  rcases List.mem_map.mp said with ⟨line, _, rfl⟩
  exact ⟨_, rfl⟩

theorem count_read_announce (command text : String) :
    (announce text).count (.read command) = 0 := by
  apply List.count_eq_zero.mpr
  intro said
  rcases exists_say_of_mem_announce said with ⟨line, impossible⟩
  cases impossible

/-- A view of a log is empty on what was only said. -/
theorem filterMap_announce {α : Type} {view : Event → Option α}
    (blind : ∀ line, view (.say line) = none) (text : String) :
    (announce text).filterMap view = [] := by
  apply List.filterMap_eq_nil_iff.mpr
  intro event said
  rcases exists_say_of_mem_announce said with ⟨line, rfl⟩
  exact blind line

/-! ## Workers -/

/-- The workers that were started, in this order. -/
def starts (log : Log) : List Nat :=
  log.filterMap fun
    | .start worker => some worker
    | _ => none

/-- The workers that were found to have ended, in this order. -/
def reaped (log : Log) : List Nat :=
  log.filterMap fun
    | .poll worker false => some worker
    | _ => none

/-- The workers that were joined, in this order. -/
def joins (log : Log) : List Nat :=
  log.filterMap fun
    | .join worker => some worker
    | _ => none

/-- The times of sleep, in seconds. -/
def sleeps (log : Log) : List Nat :=
  log.filterMap fun
    | .sleep seconds => some seconds
    | _ => none

/-- All that was done to one worker, in this order. -/
def career (log : Log) (worker : Nat) : Log :=
  log.filter (Event.concerns worker)

@[simp] theorem starts_append (log more : Log) :
    starts (log ++ more) = log.starts ++ more.starts :=
  List.filterMap_append

@[simp] theorem reaped_append (log more : Log) :
    reaped (log ++ more) = log.reaped ++ more.reaped :=
  List.filterMap_append

@[simp] theorem joins_append (log more : Log) :
    joins (log ++ more) = log.joins ++ more.joins :=
  List.filterMap_append

@[simp] theorem sleeps_append (log more : Log) :
    sleeps (log ++ more) = log.sleeps ++ more.sleeps :=
  List.filterMap_append

@[simp] theorem career_append (log more : Log) (worker : Nat) :
    career (log ++ more) worker = log.career worker ++ more.career worker :=
  List.filter_append log more

theorem joins_announce (text : String) : joins (announce text) = [] :=
  filterMap_announce (fun _ => rfl) text

theorem career_announce (text : String) (worker : Nat) : career (announce text) worker = [] := by
  apply List.filter_eq_nil_iff.mpr
  intro event said
  rcases exists_say_of_mem_announce said with ⟨line, rfl⟩
  exact Bool.false_ne_true

theorem career_receive (names : NameSet) (worker : Nat) : career [.receive names] worker = [] :=
  rfl

/-! ## The queue -/

/-- The results that were taken, in this order. -/
def received (log : Log) : List NameSet :=
  log.filterMap fun
    | .receive names => some names
    | _ => none

@[simp] theorem received_append (log more : Log) :
    received (log ++ more) = log.received ++ more.received :=
  List.filterMap_append

/-! ## Files -/

/-- Nothing was done to a source file or to the cache. -/
def SparesFiles (log : Log) : Prop :=
  ∀ event ∈ log, event.handlesFile = false

@[simp] theorem sparesFiles_nil : SparesFiles [] :=
  List.forall_mem_nil _

@[simp] theorem sparesFiles_cons {event : Event} {log : Log} :
    SparesFiles (event :: log) ↔ event.handlesFile = false ∧ SparesFiles log :=
  List.forall_mem_cons

@[simp] theorem sparesFiles_append {first second : Log} :
    SparesFiles (first ++ second) ↔ SparesFiles first ∧ SparesFiles second :=
  List.forall_mem_append

@[simp] theorem sparesFiles_announce (text : String) : SparesFiles (announce text) := by
  intro event said
  rcases exists_say_of_mem_announce said with ⟨line, rfl⟩
  rfl

end Log
end Deadwood
