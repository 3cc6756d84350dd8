import Deadwood.Proofs.CompilationUnit.References
import Deadwood.Proofs.Survey.Endings

namespace Deadwood

/-!
# What a completed survey has found

A completed survey has taken the result of every unit, so its names are those known
before and the functions that some unit refers to.  Neither the limits nor the
patience of the workers nor the order of the units can be read off them.

That a survey completes is proved for readable units whose workers leave properly.
With a positive limit such a run never waits for a result in vain: a full pool
holds at least one worker, and every worker has sent its result.
-/

variable {functions before : NameSet} {limits : Pool.Limits} {units : List CompilationUnit}

namespace Pool

/-- The workers that send nothing are those that meet an unreadable token, whatever
the functions. -/
theorem silent_eq_unreadable (functions : NameSet) (units : List CompilationUnit) :
    silent functions units = CompilationUnit.unreadable units := by
  apply List.countP_congr
  intro unit _
  rw [decide_eq_true_eq, ← CompilationUnit.mentions?_isSome_iff functions]
  cases unit.mentions? functions <;> simp

theorem silent_eq_zero_iff (functions : NameSet) :
    silent functions units = 0 ↔ ∀ unit ∈ units, unit.Readable := by
  rw [silent_eq_unreadable, CompilationUnit.unreadable, List.countP_eq_zero]
  simp only [decide_eq_true_eq, not_not]

/-- The results of readable units are the functions that they refer to. -/
theorem exists_mem_results_iff (readable : ∀ unit ∈ units, unit.Readable) {name : String} :
    (∃ found ∈ results functions units, name ∈ found) ↔
      name ∈ functions ∧ ∃ unit ∈ units, unit.Refers name := by
  constructor
  · rintro ⟨found, member, inside⟩
    rcases List.mem_filterMap.mp member with ⟨unit, present, sent⟩
    have both := (CompilationUnit.mem_of_mentions? sent).mp inside
    exact ⟨both.1, unit, present, both.2⟩
  · rintro ⟨known, unit, present, refers⟩
    have sends := (CompilationUnit.mentions?_isSome_iff functions).mpr (readable unit present)
    rcases Option.isSome_iff_exists.mp sends with ⟨found, sent⟩
    exact ⟨found, List.mem_filterMap.mpr ⟨unit, present, sent⟩,
      (CompilationUnit.mem_of_mentions? sent).mpr ⟨known, refers⟩⟩

/-- Readable units never leave a full pool without a result to take. -/
theorem sustained_of_readable (functions : NameSet) (positive : ∀ k, 1 ≤ limits k)
    (readable : ∀ unit ∈ units, unit.Readable) : Sustained functions limits units := by
  intro k within full
  have audible : silent functions (units.take k) = 0 :=
    (silent_eq_zero_iff functions).mpr fun unit member =>
      readable unit (List.mem_of_mem_take member)
  have least := positive k
  omega

end Pool

/-- A completed survey met readable units only and has united all they refer to. -/
theorem used_of_survey_completed (completed : (survey functions limits before units).stop = none) :
    (∀ unit ∈ units, unit.Readable) ∧
    ∀ name, name ∈ (survey functions limits before units).used ↔
      name ∈ before ∨ name ∈ functions ∧ ∃ unit ∈ units, unit.Refers name := by
  rcases survey_stop_eq_none_iff.mp completed with ⟨sustained, audible, proper⟩
  have readable := (Pool.silent_eq_zero_iff functions).mp audible
  have account := (survey_of_proper sustained proper audible).2
  refine ⟨readable, fun name => ?_⟩
  rw [Survey.used, account.mem_used, List.take_length, Pool.exists_mem_results_iff readable]

/-- Nothing but unreadable units and failed workers keeps a survey from completing. -/
theorem survey_completes (before : NameSet) (positive : ∀ k, 1 ≤ limits k)
    (readable : ∀ unit ∈ units, unit.Readable) (proper : ∀ unit ∈ units, unit.exitCode = 0) :
    (survey functions limits before units).stop = none := by
  have sustained := Pool.sustained_of_readable functions positive readable
  have audible := (Pool.silent_eq_zero_iff functions).mpr readable
  refine survey_stop_eq_none_iff.mpr ⟨sustained, audible, ?_⟩
  intro worker member
  have selected := (survey_remaining before sustained).1.subset (List.mem_map_of_mem member)
  rcases List.mem_mapIdx.mp selected with ⟨number, within, same⟩
  have code : Pool.exitCodeOn functions units[number] = worker.exitCode := congrArg Prod.snd same
  have present : units[number] ∈ units := List.getElem_mem within
  have sends := (CompilationUnit.mentions?_isSome_iff functions).mpr (readable _ present)
  rw [← code, Pool.exitCodeOn, if_pos sends, proper _ present]

/-- The unit without the time its worker takes. -/
def CompilationUnit.timeless (unit : CompilationUnit) : CompilationUnit :=
  { unit with polls := 0 }

/-- Reordering and other times keep what the units contain and how they leave. -/
private theorem exists_counterpart {first second : List CompilationUnit}
    (same : (first.map CompilationUnit.timeless).Perm (second.map CompilationUnit.timeless))
    {unit : CompilationUnit} (member : unit ∈ first) :
    ∃ twin ∈ second, twin.nodes = unit.nodes ∧ twin.exitCode = unit.exitCode := by
  rcases List.mem_map.mp (same.subset (List.mem_map_of_mem member)) with ⟨twin, present, equal⟩
  have fields := CompilationUnit.mk.inj equal
  exact ⟨twin, present, fields.2.1, fields.2.2.2.1⟩

/-- A survey of readable units whose workers leave properly completes and unites
what the units refer to, whatever the limits, the times and the order. -/
theorem survey_independent_of_schedule (functions : NameSet) (limits : Pool.Limits)
    (before : NameSet) (units : List CompilationUnit) (positive : ∀ k, 1 ≤ limits k)
    (readable : ∀ unit ∈ units, unit.Readable) (proper : ∀ unit ∈ units, unit.exitCode = 0) :
    (survey functions limits before units).stop = none ∧
    (∀ name, name ∈ (survey functions limits before units).used ↔
      name ∈ before ∨ name ∈ functions ∧ ∃ unit ∈ units, unit.Refers name) ∧
    ∀ (others : Pool.Limits) (reordered : List CompilationUnit), (∀ k, 1 ≤ others k) →
      (reordered.map CompilationUnit.timeless).Perm (units.map CompilationUnit.timeless) →
      (survey functions others before reordered).stop = none ∧
      (survey functions others before reordered).used =
        (survey functions limits before units).used := by
  have completed : (survey functions limits before units).stop = none :=
    survey_completes before positive readable proper
  have union := (used_of_survey_completed completed).2
  refine ⟨completed, union, ?_⟩
  intro others reordered admissible same
  have reorderedReadable : ∀ unit ∈ reordered, unit.Readable := by
    intro unit member
    rcases exists_counterpart same member with ⟨twin, present, nodes, _⟩
    rw [CompilationUnit.Readable, ← nodes]
    exact readable twin present
  have reorderedProper : ∀ unit ∈ reordered, unit.exitCode = 0 := by
    intro unit member
    rcases exists_counterpart same member with ⟨twin, present, _, code⟩
    rw [← code]
    exact proper twin present
  have reorderedCompleted : (survey functions others before reordered).stop = none :=
    survey_completes before admissible reorderedReadable reorderedProper
  refine ⟨reorderedCompleted, Std.ExtTreeSet.ext_mem fun name => ?_⟩
  rw [(used_of_survey_completed reorderedCompleted).2, union]
  refine or_congr_right (and_congr_right fun _ => ⟨?_, ?_⟩)
  · rintro ⟨unit, member, node, inside, refers⟩
    rcases exists_counterpart same member with ⟨twin, present, nodes, _⟩
    exact ⟨twin, present, node, nodes ▸ inside, refers⟩
  · rintro ⟨unit, member, node, inside, refers⟩
    rcases exists_counterpart same.symm member with ⟨twin, present, nodes, _⟩
    exact ⟨twin, present, node, nodes ▸ inside, refers⟩

/-- Two workers that must take turns find what they find side by side, in the other
order and without delay. -/
theorem survey_independent_of_schedule_turns :
    (survey (.ofList ["f"]) (fun _ => 1) ∅
      [{ nodes := [⟨.construct "CALL_EXPR", "g", some [some " f"]⟩], polls := 2 },
        { polls := 5 }]).stop = none ∧
    (survey (.ofList ["f"]) (fun _ => 2) ∅
      [{}, { nodes := [⟨.construct "CALL_EXPR", "g", some [some " f"]⟩] }]).used =
    (survey (.ofList ["f"]) (fun _ => 1) ∅
      [{ nodes := [⟨.construct "CALL_EXPR", "g", some [some " f"]⟩], polls := 2 },
        { polls := 5 }]).used := by
  have turns := survey_independent_of_schedule (.ofList ["f"]) (fun _ => 1) ∅
    [{ nodes := [⟨.construct "CALL_EXPR", "g", some [some " f"]⟩], polls := 2 }, { polls := 5 }]
    (fun _ => by decide) (by decide +kernel) (by decide)
  exact ⟨turns.1, (turns.2.2 (fun _ => 2)
    [{}, { nodes := [⟨.construct "CALL_EXPR", "g", some [some " f"]⟩] }]
    (fun _ => by decide) (List.Perm.swap _ _ _)).2⟩

end Deadwood
