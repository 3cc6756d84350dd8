import Deadwood.CompilationUnit
import Deadwood.Event

namespace Deadwood
namespace Pool

/-!
# Workers and their retirement

A worker is a child process that reads one compilation unit.  Whoever waits for
a free place polls the workers in turn until one of them has ended.  A pass over
all workers that finds every one alive is followed by a second of sleep and by
another pass.

The number of polls that a worker still answers with "alive" is its patience.
Each pass uses up one unit of the first worker's patience, which bounds the
number of passes.
-/

structure Worker where
  /-- Workers are numbered from zero in the order of their creation. -/
  number : Nat
  patience : Nat
  exitCode : Int
deriving DecidableEq

/-- The worker that reads `unit`.  A worker that fails to read its unit leaves
with exit code one, whatever code it was going to leave with. -/
def Worker.forUnit (number : Nat) (unit : CompilationUnit) (result : Option NameSet) : Worker where
  number := number
  patience := unit.polls.toNat
  exitCode := if result.isSome then unit.exitCode else 1

/-- The result of one pass over the workers. -/
structure Sweep where
  /-- The worker at which the pass stopped, because it had ended. -/
  retired : Option Worker
  /-- The other workers, in their order. -/
  kept : List Worker
  log : Log

/-- Poll the workers in order, up to the first one that has ended. -/
def sweep : List Worker → Sweep
  | [] => ⟨none, [], []⟩
  | worker :: others =>
      match worker.patience with
      | 0 => ⟨some worker, others, [.poll worker.number false]⟩
      | patience + 1 =>
          let rest := sweep others
          ⟨rest.retired, { worker with patience := patience } :: rest.kept,
            .poll worker.number true :: rest.log⟩

/-- A finished wait: the worker that was let go, the others in their order, and
what was done meanwhile. -/
structure Reaping where
  retired : Worker
  kept : List Worker
  log : Log

/-- Record what was done before. -/
def Reaping.after (before : Log) (reaping : Reaping) : Reaping :=
  { reaping with log := before ++ reaping.log }

/-- Sweep over `first` and then `others`, again and again, until one of them has
ended.  The number is the patience left to `first`; the stored one is not used. -/
def reapFrom (first : Worker) : Nat → List Worker → Reaping
  | 0, others => ⟨{ first with patience := 0 }, others, [.poll first.number false]⟩
  | patience + 1, others =>
      let rest := sweep others
      match rest.retired with
      | some retired =>
          ⟨retired, { first with patience := patience } :: rest.kept,
            .poll first.number true :: rest.log⟩
      | none =>
          (reapFrom first patience rest.kept).after
            (.poll first.number true :: rest.log ++ [.sleep 1])

/-- Wait for a worker to end.  Without workers the wait would never end. -/
def reap? : List Worker → Option Reaping
  | [] => none
  | first :: others => some (reapFrom first first.patience others)

theorem reap?_eq_none_iff {workers : List Worker} : reap? workers = none ↔ workers = [] := by
  cases workers <;> simp [reap?]

example : (reap? [⟨0, 2, 0⟩, ⟨1, 1, 0⟩, ⟨2, 1, 0⟩]).map (fun reaping => (reaping.retired.number,
    reaping.kept, reaping.log)) =
    some (1, [⟨0, 0, 0⟩, ⟨2, 0, 0⟩],
      [.poll 0 true, .poll 1 true, .poll 2 true, .sleep 1, .poll 0 true, .poll 1 false]) := by
  decide

end Pool
end Deadwood
