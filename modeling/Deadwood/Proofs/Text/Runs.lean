import Deadwood.Proofs.Text.Lines

namespace Deadwood
namespace Text

/-!
# Runs

A text that is cut at all characters of some class has empty pieces wherever two of
these characters stand side by side.  The runs of a text are the other pieces.  They do
not tell how many dividing characters stood between them, nor which.

The fields of a table row are its runs between spaces and tabs.  The lines of a text that
are not empty are runs as well, namely those between line feeds and carriage returns.  This
holds although lines are not read by cutting at these two characters: a carriage return
before a line feed makes up one line end with it.  But that only decides whether there is an
empty line between the two.
-/

/-- The pieces between characters of the class `divides`, without the empty ones.  Bytes are
cut in the same way. -/
def runs {α : Type} [DecidableEq α] (divides : α → Bool) (text : List α) : List (List α) :=
  (text.splitOnP divides).filter (· ≠ [])

/-- Line feeds and carriage returns end lines. -/
def isLineEnd (c : Char) : Bool :=
  c = '\n' || c = '\r'

section

variable {α : Type} {divides others : α → Bool} {text piece : List α} {c : α}

/-- Cutting removes the dividing characters and nothing else. -/
theorem forall_mem_of_mem_splitOnP (member : piece ∈ text.splitOnP divides) :
    ∀ c ∈ piece, c ∈ text ∧ divides c = false := by
  induction text generalizing piece with
  | nil =>
      cases List.mem_singleton.mp member
      exact List.forall_mem_nil _
  | cons c text ih =>
      have later {piece : List α} (cut : piece ∈ text.splitOnP divides) :
          ∀ d ∈ piece, d ∈ c :: text ∧ divides d = false := by
        intro d inside
        rcases ih cut d inside with ⟨listed, undivided⟩
        exact ⟨List.mem_cons_of_mem c listed, undivided⟩
      rw [List.splitOnP_cons_eq_if_modifyHead] at member
      split at member
      · rcases List.mem_cons.mp member with rfl | cut
        · exact List.forall_mem_nil _
        · exact later cut
      · rename_i undivided
        cases first : text.splitOnP divides with
        | nil => exact absurd first (List.splitOnP_ne_nil divides text)
        | cons head tail =>
            rw [first] at later member
            rcases List.mem_cons.mp member with rfl | cut
            · exact List.forall_mem_cons.mpr
                ⟨⟨List.mem_cons_self, Bool.eq_false_iff.mpr undivided⟩, later List.mem_cons_self⟩
            · exact later (List.mem_cons_of_mem head cut)

variable [DecidableEq α]

theorem mem_runs : piece ∈ runs divides text ↔ piece ∈ text.splitOnP divides ∧ piece ≠ [] := by
  simp [runs]

theorem runs_append_cons (front back : List α) (divided : divides c = true) :
    runs divides (front ++ c :: back) = runs divides front ++ runs divides back := by
  simp only [runs, List.splitOnP_append_cons front back divided, List.filter_append]

theorem runs_cons (text : List α) (divided : divides c = true) :
    runs divides (c :: text) = runs divides text :=
  runs_append_cons [] text divided

/-- A text of dividing characters only has no runs. -/
theorem runs_of_divided (divided : ∀ c ∈ text, divides c = true) : runs divides text = [] := by
  induction text with
  | nil => rfl
  | cons c text ih =>
      rcases List.forall_mem_cons.mp divided with ⟨first, following⟩
      rw [runs_cons text first, ih following]

/-- A text without dividing characters is its own only run, unless it is empty. -/
theorem runs_of_undivided (nonempty : text ≠ []) (undivided : ∀ c ∈ text, divides c = false) :
    runs divides text = [text] := by
  rw [runs, List.splitOnP_eq_singleton undivided]
  exact List.filter_cons_of_pos (decide_eq_true nonempty)

/-- Classes that agree on the characters of a text divide it in the same way. -/
theorem runs_congr (agree : ∀ c ∈ text, divides c = others c) :
    runs divides text = runs others text := by
  have cuts : text.splitOnP divides = text.splitOnP others := by
    induction text with
    | nil => rfl
    | cons c text ih =>
        rcases List.forall_mem_cons.mp agree with ⟨first, following⟩
        rw [List.splitOnP_cons_eq_if_modifyHead, List.splitOnP_cons_eq_if_modifyHead, first,
          ih following]
  rw [runs, cuts, runs]

end

/-! ## Lines that are not empty -/

/-- The only piece that reading lines leaves out is an empty one. -/
theorem filter_feedLines (text : List Char) :
    (feedLines text).filter (· ≠ []) = runs (· == '\n') text := by
  rw [runs, ← List.splitOn_eq_splitOnP, ← pieces_eq_splitOn, feedLines]
  by_cases closed : (pieces '\n' text).getLast? = some []
  · rcases List.getLast?_eq_some_iff.mp closed with ⟨others, whole⟩
    simp only [whole, List.getLast?_concat, if_true, List.dropLast_concat, List.filter_append]
    exact (List.append_nil _).symm
  · simp only [closed, if_false]

/-- On a single line it makes no difference which line ends are looked for. -/
theorem runs_of_unended {text : List Char} (unended : ∀ c ∈ text, isLineEnd c = false) :
    runs (· == '\n') text = runs isLineEnd text := by
  apply runs_congr
  intro c member
  have ordinary := unended c member
  simp only [isLineEnd, Bool.or_eq_false_iff, decide_eq_false_iff_not] at ordinary
  simp [isLineEnd, ordinary]

/-- Folding line ends may join two of them, but not the lines on either side.  The
induction carries along what stands before the text on its first line. -/
theorem runs_append_foldLineEnds (front text : List Char)
    (unended : ∀ c ∈ front, isLineEnd c = false) :
    runs (· == '\n') (front ++ foldLineEnds text) = runs isLineEnd (front ++ text) := by
  induction text using foldLineEnds.induct generalizing front with
  | case1 text ih =>
      rw [foldLineEnds, runs_append_cons front _ rfl, runs_append_cons front _ rfl,
        runs_cons text rfl, runs_of_unended unended]
      exact congrArg _ (ih [] (List.forall_mem_nil _))
  | case2 c text apart ih =>
      rw [foldLineEnds]
      · cases ending : isLineEnd c with
        | true =>
            have folded : (if c = '\r' then '\n' else c) = '\n' := by
              simp only [isLineEnd, Bool.or_eq_true, decide_eq_true_eq] at ending
              rcases ending with rfl | rfl <;> rfl
            rw [folded, runs_append_cons front _ rfl, runs_append_cons front _ ending,
              runs_of_unended unended]
            exact congrArg _ (ih [] (List.forall_mem_nil _))
        | false =>
            have kept : (if c = '\r' then '\n' else c) = c := by
              apply if_neg
              rintro rfl
              cases ending
            have longer := ih (front ++ [c]) (List.forall_mem_append.mpr
              ⟨unended, List.forall_mem_singleton.mpr ending⟩)
            simpa only [kept, List.append_assoc, List.singleton_append] using longer
      · exact apart
  | case3 =>
      rw [foldLineEnds, List.append_nil]
      exact runs_of_unended unended

/-- The lines that are not empty are the runs between line ends of any kind. -/
theorem filter_lines (text : List Char) :
    (lines text).filter (· ≠ []) = runs isLineEnd text := by
  rw [lines, filter_feedLines]
  exact runs_append_foldLineEnds [] text (List.forall_mem_nil _)

theorem mem_lines_iff {line text : List Char} (nonempty : line ≠ []) :
    line ∈ lines text ↔ line ∈ runs isLineEnd text := by
  rw [← filter_lines, List.mem_filter]
  simp [nonempty]

end Text
end Deadwood
