import Deadwood.Workspace

namespace Deadwood
namespace Report

/-!
# Reading a report

The names in a report can be read off its text again, provided that each of them fits
on a line of its own.  A name that is empty or has a line feed in it would not: such a
report could be read in two ways.
-/

/-- The names in the text of a report, one a line.  An empty text has none. -/
def namesIn (content : String) : List String :=
  if content = "" then [] else (content.toList.splitOn '\n').map String.ofList

/-- Whether a name takes up exactly one line. -/
def FitsLine (name : String) : Prop :=
  name.toList ≠ [] ∧ '\n' ∉ name.toList

private theorem intercalate_ne_empty {first : String} (fits : FitsLine first)
    (others : List String) : "\n".intercalate (first :: others) ≠ "" := by
  intro empty
  apply fits.1
  have characters := congrArg String.toList empty
  rw [String.toList_intercalate, List.map_cons] at characters
  cases others with
  | nil => exact List.intercalate_singleton.symm.trans characters
  | cons second others =>
      rw [List.map_cons, List.intercalate_cons_cons, List.append_assoc] at characters
      exact (List.append_eq_nil_iff.mp characters).1

/-- Names that fit on a line are read back as they were written. -/
theorem namesIn_render {dead : NameSet} (fits : ∀ name ∈ dead, FitsLine name) :
    namesIn (render dead) = dead.toList := by
  rw [render]
  cases listed : dead.toList with
  | nil => rfl
  | cons first others =>
      have each : ∀ name ∈ first :: others, FitsLine name := by
        intro name member
        rw [← listed, Std.ExtTreeSet.mem_toList] at member
        exact fits name member
      have divided : ("\n".intercalate (first :: others)).toList.splitOn '\n' =
          (first :: others).map String.toList := by
        rw [String.toList_intercalate]
        apply List.splitOn_intercalate '\n' _ (by simp)
        intro line member
        rcases List.mem_map.mp member with ⟨name, present, rfl⟩
        exact (each name present).2
      have restored : String.ofList ∘ String.toList = id := by
        funext name
        exact String.ofList_toList
      rw [namesIn, if_neg (intercalate_ne_empty (each first List.mem_cons_self) others), divided,
        List.map_map, restored, List.map_id]

example : namesIn "a_1\nb" = ["a_1", "b"] := by decide +kernel

/-- Names that fit on a line are found by cutting the text at line feeds. -/
theorem splitOn_render {dead : NameSet} (fits : ∀ name ∈ dead, FitsLine name)
    (written : render dead ≠ "") :
    (render dead).toList.splitOn '\n' = dead.toList.map String.toList := by
  have read := namesIn_render fits
  have restored : String.toList ∘ String.ofList = id := by
    funext line
    exact String.toList_ofList
  rw [namesIn, if_neg written] at read
  rw [← read, List.map_map, restored, List.map_id]

/-- Different sets of names that fit on a line make different reports. -/
theorem render_inj {dead other : NameSet} (fits : ∀ name ∈ dead, FitsLine name)
    (otherFits : ∀ name ∈ other, FitsLine name) : render dead = render other ↔ dead = other := by
  constructor
  · intro same
    apply Std.ExtTreeSet.toList_inj.mp
    rw [← namesIn_render fits, same, namesIn_render otherFits]
  · exact congrArg render

theorem render_eq_empty_iff {dead : NameSet} (fits : ∀ name ∈ dead, FitsLine name) :
    render dead = "" ↔ dead = ∅ := by
  have nothing : render ∅ = "" := rfl
  rw [← nothing]
  apply render_inj fits
  intro name member
  exact absurd member Std.ExtTreeSet.not_mem_empty

end Report
end Deadwood
