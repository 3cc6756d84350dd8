import Mathlib.Data.List.TakeWhile
import Deadwood.Text

namespace Deadwood
namespace Text

/-!
# Margins and closed lines

Trimming cuts a text into two margins of blanks and what stands between them.
Reading lines cuts a text at its line ends, and a line feed is a safe place for
such a cut: whatever stands before it is read in the same way whether or not
anything follows.  A carriage return is no such place, because a line feed after
it belongs to the same line end.
-/

/-! ## Margins -/

/-- Trimming removes a blank margin on either side and nothing else. -/
theorem exists_margins (text : List Char) :
    ∃ left right, text = left ++ (trim text ++ right) ∧
      (∀ c ∈ left, isBlank c = true) ∧ ∀ c ∈ right, isBlank c = true := by
  let inner := text.dropWhile isBlank
  refine ⟨text.takeWhile isBlank, (inner.reverse.takeWhile isBlank).reverse, ?_, ?_, ?_⟩
  · have ending : trim text ++ (inner.reverse.takeWhile isBlank).reverse = inner := by
      rw [trim, ← List.reverse_append, List.takeWhile_append_dropWhile, List.reverse_reverse]
    rw [ending, List.takeWhile_append_dropWhile]
  · intro c member
    exact List.mem_takeWhile_imp member
  · intro c member
    exact List.mem_takeWhile_imp (List.mem_reverse.mp member)

/-! ## Lines -/

/-- The lines of a text under any mixture of line ends, with their margins. -/
def lines (text : List Char) : List (List Char) :=
  feedLines (foldLineEnds text)

theorem trimmedLines_eq_map_lines (text : List Char) :
    trimmedLines text = (lines text).map trim :=
  rfl

theorem pieces_eq_splitOn {α : Type} [DecidableEq α] (separator : α) (text : List α) :
    pieces separator text = text.splitOn separator := by
  induction text with
  | nil => rfl
  | cons c text ih =>
      rw [pieces, List.splitOn_cons_eq_if_modifyHead, ih]
      simp only [beq_iff_eq]

/-- A separator divides the pieces before it from those after it. -/
theorem pieces_append_cons (separator : Char) (front back : List Char) :
    pieces separator (front ++ separator :: back) =
      pieces separator front ++ pieces separator back := by
  simp only [pieces_eq_splitOn]
  exact List.splitOn_append_cons_self front back

theorem feedLines_append_cons (front back : List Char) :
    feedLines (front ++ '\n' :: back) = pieces '\n' front ++ feedLines back := by
  have remaining := pieces_ne_nil '\n' back
  have last : (pieces '\n' front ++ pieces '\n' back).getLast? =
      (pieces '\n' back).getLast? := by
    rw [List.getLast?_append, List.getLast?_eq_some_getLast remaining, Option.some_or]
  simp only [feedLines, pieces_append_cons, last,
    List.dropLast_append_of_ne_nil remaining]
  by_cases blank : (pieces '\n' back).getLast? = some []
  · rw [if_pos blank, if_pos blank]
  · rw [if_neg blank, if_neg blank]

/-- What a line feed ends is folded independently of what follows. -/
theorem exists_foldLineEnds_append_cons (front : List Char) :
    ∃ folded, ∀ back, foldLineEnds (front ++ '\n' :: back) =
      folded ++ '\n' :: foldLineEnds back := by
  induction front using foldLineEnds.induct with
  | case1 text ih =>
      rcases ih with ⟨folded, step⟩
      refine ⟨'\n' :: folded, fun back => ?_⟩
      simp only [List.cons_append, foldLineEnds, step back]
  | case2 c text single ih =>
      by_cases fused : c = '\r' ∧ text = []
      · -- The line feed is the second half of a line end that `c` begins.
        rcases fused with ⟨rfl, rfl⟩
        exact ⟨[], fun back => rfl⟩
      · rcases ih with ⟨folded, step⟩
        refine ⟨(if c = '\r' then '\n' else c) :: folded, fun back => ?_⟩
        have apart : ∀ rest, c = '\r' → text ++ '\n' :: back = '\n' :: rest → False := by
          intro rest carriage same
          cases text with
          | nil => exact fused ⟨carriage, rfl⟩
          | cons d text => exact single text carriage (by rw [(List.cons.inj same).1])
        rw [List.cons_append, foldLineEnds, step back, List.cons_append]
        exact apart
  | case3 => exact ⟨[], fun back => rfl⟩

/-- Closed texts are read one after the other. -/
theorem lines_append (front back : List Char) :
    lines (front ++ '\n' :: back) = lines (front ++ ['\n']) ++ lines back := by
  rcases exists_foldLineEnds_append_cons front with ⟨folded, folding⟩
  have closed : feedLines (folded ++ ['\n']) = pieces '\n' folded := by
    rw [feedLines_append_cons]
    exact List.append_nil _
  unfold lines
  rw [folding back, folding [], feedLines_append_cons]
  exact congrArg (· ++ feedLines (foldLineEnds back)) closed.symm

/-- The lines of closed texts in a row are the lines of each of them. -/
theorem mem_lines_flatMap {α : Type} {line : List Char} {items : List α}
    {content : α → List Char} :
    line ∈ lines (items.flatMap fun item => content item ++ ['\n']) ↔
      ∃ item ∈ items, line ∈ lines (content item ++ ['\n']) := by
  induction items with
  | nil => simp [lines, foldLineEnds, feedLines, pieces]
  | cons item items ih =>
      rw [List.flatMap_cons, List.append_assoc, List.singleton_append, lines_append,
        List.mem_append, ih]
      simp

end Text
end Deadwood
