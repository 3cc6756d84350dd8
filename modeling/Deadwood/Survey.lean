import Deadwood.Pool.Basic

namespace Deadwood

/-!
# Surveying compilation units

A survey runs the pool over a list of units: it accepts them one by one, and then
collects from the workers that are left.  Its result is the state of the pool at
the end, with the reason if the run halted early.
-/

structure Survey where
  pool : Pool
  stop : Option Stop

namespace Survey

def ofResult : Except Pool.Halted Pool → Survey
  | .ok pool => ⟨pool, none⟩
  | .error halted => ⟨halted.pool, some halted.stop⟩

/-- The functions found to be used. -/
def used (survey : Survey) : NameSet :=
  survey.pool.used

def log (survey : Survey) : Log :=
  survey.pool.log

/-- What holds of the pool after two steps, if each of them keeps it, also where it
halts. -/
theorem pool_ofResult_bind {P : Pool → Prop} {first : Except Pool.Halted Pool}
    {second : Pool → Except Pool.Halted Pool} (start : P (ofResult first).pool)
    (kept : ∀ pool, P pool → P (ofResult (second pool)).pool) :
    P (ofResult (first >>= second)).pool := by
  cases first with
  | error halted => exact start
  | ok pool => exact kept pool start

theorem pool_ofResult_foldlM {α : Type} {P : Pool → Prop}
    {step : Pool → α → Except Pool.Halted Pool}
    (kept : ∀ pool item, P pool → P (ofResult (step pool item)).pool) (items : List α)
    {pool : Pool} (start : P pool) : P (ofResult (items.foldlM step pool)).pool := by
  induction items generalizing pool with
  | nil => exact start
  | cons item items ih =>
      rw [List.foldlM_cons]
      exact pool_ofResult_bind (kept pool item start) fun _ => ih

end Survey

namespace Pool

/-- Accept all units into a fresh pool. -/
def dispatch (functions : NameSet) (limits : Limits) (used : NameSet)
    (units : List CompilationUnit) : Except Halted Pool :=
  units.foldlM (accept functions limits units.length) { used := used }

/-- Collect from the workers of the pool, in the order of their creation. -/
def collectAll (pool : Pool) : Except Halted Pool :=
  pool.workers.foldlM collect pool

end Pool

/-- Add the functions that the units mention to those known to be used. -/
def survey (functions : NameSet) (limits : Pool.Limits) (used : NameSet)
    (units : List CompilationUnit) : Survey :=
  .ofResult do
    let pool ← Pool.dispatch functions limits used units
    pool.collectAll

end Deadwood
