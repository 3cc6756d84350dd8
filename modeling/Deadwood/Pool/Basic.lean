import Deadwood.Pool.Worker

namespace Deadwood

/-!
# The worker pool

The pool starts one worker for each compilation unit and unites the name sets
that they send back.  Results arrive through one queue, in the order in which
the workers delivered them, and a taken result is not tied to the worker whose
place is given up at the same time.

Before a unit is accepted, a full pool first takes one result and then waits for
one worker to end.  Neither step looks at the exit code of that worker; only the
workers that are still in the pool at the end are joined and checked.  A worker
that fails to read its unit sends nothing, so a later taking may find the queue
empty.  As no further result can arrive then, the run is stuck, and this is one
of the ways in which it can halt.

The queue holds any number of results of any size.  A worker delivers its result
when it is started and never waits for somebody to take it, so joining a worker
does not get stuck.  A queue that is written through a pipe has a capacity, and
there a worker with a large result may not end before the result is taken.  This
is left out.
-/

/-- Why a run of the pool halts early. -/
inductive Stop where
  /-- A joined worker had a non-zero exit code. -/
  | workerFailed
  /-- A result was waited for and none can come. -/
  | starved
  /-- The end of a worker was waited for and there is none. -/
  | deserted
deriving DecidableEq

/-- The exit code with which the whole program leaves.  A run that is stuck has
none. -/
def Stop.exitCode? : Stop → Option Nat
  | .workerFailed => some 1
  | .starved => none
  | .deserted => none

structure Pool where
  /-- The number of workers started so far, which is also the next one's number. -/
  started : Nat := 0
  /-- The count held against the limit. -/
  running : Nat := 0
  /-- Started and not retired, in the order of their creation. -/
  workers : List Pool.Worker := []
  /-- Delivered results that were not taken yet. -/
  queue : List NameSet := []
  /-- The union of all results taken, and of the names known before. -/
  used : NameSet
  log : Log := []

namespace Pool

/-- A halted pool keeps the state in which it halted. -/
structure Halted where
  stop : Stop
  pool : Pool

/-- The largest number of workers wanted at the same time, asked anew before each
unit.  It need not be positive. -/
abbrev Limits := Nat → Int

/-- Limits read off a list, whose last element is repeated for ever.  An empty
list stands for sixty-four throughout. -/
def Limits.ofList (limits : List Int) : Limits :=
  fun k => limits[k]?.getD (limits.getLast?.getD 64)

def record (events : Log) (pool : Pool) : Pool :=
  { pool with log := pool.log ++ events }

/-- Take the oldest waiting result. -/
def receive (pool : Pool) : Except Halted Pool :=
  match pool.queue with
  | [] => .error ⟨.starved, pool.record [.starve]⟩
  | names :: queue =>
      .ok { pool.record [.receive names] with queue := queue, used := pool.used ∪ names }

/-- Wait for a worker to end and let it go. -/
def retire (pool : Pool) : Except Halted Pool :=
  match reap? pool.workers with
  | none => .error ⟨.deserted, pool⟩
  | some reaping =>
      .ok { pool.record reaping.log with workers := reaping.kept, running := pool.running - 1 }

/-- Give up one place if the limit is reached. -/
def makeRoom (limit : Int) (pool : Pool) : Except Halted Pool :=
  if limit ≤ pool.running then do
    let pool ← pool.receive
    pool.retire
  else
    .ok pool

/-- Start a worker on `unit`.  Its result, if it has one, is queued at once. -/
def launch (functions : NameSet) (unit : CompilationUnit) (pool : Pool) : Pool :=
  let result := unit.mentions? functions
  { pool.record [.start pool.started] with
    started := pool.started + 1
    running := pool.running + 1
    workers := pool.workers ++ [Worker.forUnit pool.started unit result]
    queue := pool.queue ++ result.toList }

/-- Accept one of `total` units. -/
def accept (functions : NameSet) (limits : Limits) (total : Nat) (pool : Pool)
    (unit : CompilationUnit) : Except Halted Pool := do
  let announced := pool.record
    (Log.progress (pool.started + 1) total "Navigating AST and collecting symbols... ")
  let roomy ← announced.makeRoom (limits pool.started)
  return roomy.launch functions unit

/-- Wait for `worker`, check its exit code, and take one result. -/
def collect (pool : Pool) (worker : Worker) : Except Halted Pool :=
  let joined := pool.record [.join worker.number]
  if worker.exitCode = 0 then joined.receive
  else
    .error ⟨.workerFailed,
      joined.record (Log.announce "[x] Failure in one of the child processes...")⟩

end Pool
end Deadwood
