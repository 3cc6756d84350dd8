import Mathlib.Data.List.Nodup
import Deadwood.Proofs.Log.Views
import Deadwood.Proofs.Pool.Reaping

namespace Deadwood
namespace Pool

/-!
# What is done in a wait

Everybody is passed as often as the least patient worker is found alive, with a second of
sleep after each pass, and the last pass stops at the earliest such worker.  Here this is
looked at from the side of a single worker.  It is polled once in every full pass, and once
more if it stands in front of the worker that is let go.
-/

open Worker

variable {front back : List Worker} {worker : Worker}

theorem sleeps_map_foundAlive (workers : List Worker) :
    Log.sleeps (workers.map foundAlive) = [] := by
  rw [Log.sleeps, List.filterMap_map]
  exact List.filterMap_eq_nil_iff.mpr fun _ _ => rfl

/-- There is one sleep for every pass that goes through. -/
theorem sleeps_waitLog (front : List Worker) (worker : Worker) (back : List Worker)
    (passes : Nat) : (waitLog front worker back passes).sleeps = List.replicate passes 1 := by
  induction passes with
  | zero =>
      rw [waitLog, Log.sleeps_append, Log.sleeps_append, sleeps_map_foundAlive]
      rfl
  | succ passes ih =>
      rw [waitLog_succ, Log.sleeps_append, Log.sleeps_append, sleeps_map_foundAlive, ih,
        List.replicate_succ]
      rfl

theorem career_map_foundAlive (workers : List Worker) (number : Nat) :
    Log.career (workers.map foundAlive) number =
      List.replicate ((workers.map Worker.number).count number) (.poll number true) := by
  induction workers with
  | nil => rfl
  | cons worker workers ih =>
      rw [List.map_cons, List.map_cons, Log.career, List.filter_cons, ← Log.career, ih,
        List.count_cons]
      by_cases same : worker.number = number
      · simp [foundAlive, Event.concerns, same, List.replicate_succ]
      · simp [foundAlive, Event.concerns, same]

/-- A worker is found alive in every full pass, and in the last one if it comes before
the worker that has ended. -/
theorem career_waitLog (front : List Worker) (worker : Worker) (back : List Worker)
    (passes number : Nat) :
    (waitLog front worker back passes).career number =
      List.replicate (passes * ((front ++ worker :: back).map Worker.number).count number +
        (front.map Worker.number).count number) (.poll number true) ++
      if worker.number = number then [.poll number false] else [] := by
  induction passes with
  | zero =>
      rw [waitLog, List.replicate_zero, List.flatten_nil, List.nil_append, Log.career_append,
        career_map_foundAlive, Nat.zero_mul, Nat.zero_add]
      by_cases same : worker.number = number
      · simp [Log.career, Event.concerns, same]
      · simp [Log.career, Event.concerns, same]
  | succ passes ih =>
      have asleep : Log.career [.sleep 1] number = [] := rfl
      rw [waitLog_succ, Log.career_append, Log.career_append, career_map_foundAlive, asleep,
        List.append_nil, ih, ← List.append_assoc, List.replicate_append_replicate,
        ← Nat.add_assoc, Nat.add_one_mul, Nat.add_comm (passes * _)]

/-- In a wait for workers with different numbers, those in front of the one that is let
go are polled once more than those behind it. -/
theorem career_waitLog_of_nodup
    (distinct : ((front ++ worker :: back).map Worker.number).Nodup) (passes : Nat) :
    (∀ other ∈ front, (waitLog front worker back passes).career other.number =
      List.replicate (passes + 1) other.foundAlive) ∧
    (waitLog front worker back passes).career worker.number =
      List.replicate passes worker.foundAlive ++ [.poll worker.number false] ∧
    (∀ other ∈ back, (waitLog front worker back passes).career other.number =
      List.replicate passes other.foundAlive) := by
  have once {number : Nat} (listed : number ∈ (front ++ worker :: back).map Worker.number) :
      ((front ++ worker :: back).map Worker.number).count number = 1 :=
    List.count_eq_one_of_mem distinct listed
  have apart := distinct
  rw [List.map_append, List.map_cons, List.nodup_append] at apart
  rcases apart with ⟨frontDistinct, backDistinct, apart⟩
  have behind : worker.number ∉ back.map Worker.number := (List.nodup_cons.mp backDistinct).1
  refine ⟨?_, ?_, ?_⟩
  · intro other member
    have listed := List.mem_map_of_mem (f := Worker.number) member
    have different := apart other.number listed worker.number List.mem_cons_self
    rw [career_waitLog, once (by simp [List.mem_map_of_mem member]),
      List.count_eq_one_of_mem frontDistinct listed, if_neg different.symm, Nat.mul_one,
      List.append_nil]
    rfl
  · have absent : worker.number ∉ front.map Worker.number := by
      intro listed
      exact apart _ listed _ List.mem_cons_self rfl
    rw [career_waitLog, once (by simp), List.count_eq_zero.mpr absent, if_pos rfl, Nat.mul_one,
      Nat.add_zero]
    rfl
  · intro other member
    have listed := List.mem_map_of_mem (f := Worker.number) member
    have absent : other.number ∉ front.map Worker.number := by
      intro before
      exact apart _ before _ (List.mem_cons_of_mem _ listed) rfl
    have different : worker.number ≠ other.number := by
      intro same
      rw [← same] at listed
      exact behind listed
    rw [career_waitLog, once (by simp [List.mem_map_of_mem member]),
      List.count_eq_zero.mpr absent, if_neg different, Nat.mul_one, Nat.add_zero,
      List.append_nil]
    rfl

end Pool
end Deadwood
