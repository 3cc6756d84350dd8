import Deadwood.Proofs.Listing.Grammar

namespace Deadwood
namespace Listing

/-!
# Scanning without choices

The shapes of a header and of a mention leave choices open.  An address may itself contain
brackets and colons, so it is not clear from the start where it ends, and neither is where a
name ends.  A search that follows the shape alone would try out longer and shorter parts, and
which of its findings comes first would depend on the order of its attempts.

For headers there is nothing to choose.  The address ends at the first blank of the line, and
the name at the first character that no name contains, so a line can be read as a header in one
way at most.  For mentions the place on the line is a real choice.  It is settled in favour of
the leftmost one, no matter how many attempts to the left of it have failed, and margins of
blanks play no part in it.
-/

/-! ## Headers -/

/-- A way to read a line as a header. -/
structure HeaderReading (line address : List Char) (name : String) : Prop where
  named : IsName name
  nonempty : address ≠ []
  solid : ∀ c ∈ address, Text.isBlank c = false
  shape : ∃ rest, line = address ++ ' ' :: '<' :: (name.toList ++ '>' :: ':' :: rest)

theorem opens_iff_exists_headerReading {line : List Char} {name : String} :
    Opens line name ↔ ∃ address, HeaderReading line address name := by
  constructor
  · rintro ⟨named, address, rest, nonempty, solid, shape⟩
    exact ⟨address, named, nonempty, solid, rest, shape⟩
  · rintro ⟨address, named, nonempty, solid, rest, shape⟩
    exact ⟨named, address, rest, nonempty, solid, shape⟩

theorem HeaderReading.address_eq {line address : List Char} {name : String}
    (reading : HeaderReading line address name) : line.takeWhile (!Text.isBlank ·) = address := by
  rcases reading.shape with ⟨rest, rfl⟩
  exact takeWhile_address reading.solid _

theorem HeaderReading.unique {line address other : List Char} {name otherName : String}
    (reading : HeaderReading line address name)
    (again : HeaderReading line other otherName) : address = other ∧ name = otherName := by
  constructor
  · exact reading.address_eq.symm.trans again.address_eq
  · have first := header?_eq_some_iff.mpr (opens_iff_exists_headerReading.mpr ⟨_, reading⟩)
    have second := header?_eq_some_iff.mpr (opens_iff_exists_headerReading.mpr ⟨_, again⟩)
    exact Option.some.inj (first.symm.trans second)

/-- The header scanner finds a name exactly if the line can be read as a header of this name.
There is one such reading at most.  Hence a search that goes through all readings of the line, in
whatever order, and takes the first one, gets the name that the scanner gets. -/
theorem header_read_in_one_way (line : List Char) :
    (∀ name, header? line = some name ↔ ∃ address, HeaderReading line address name) ∧
    (∀ address other name otherName, HeaderReading line address name →
      HeaderReading line other otherName → address = other ∧ name = otherName) ∧
    ∀ readings : List (List Char × String),
      (∀ address name, (address, name) ∈ readings ↔ HeaderReading line address name) →
      readings.head?.map Prod.snd = header? line := by
  refine ⟨?_, ?_, ?_⟩
  · intro name
    rw [header?_eq_some_iff, opens_iff_exists_headerReading]
  · intro address other name otherName reading again
    exact reading.unique again
  · intro readings complete
    ext name
    rw [header?_eq_some_iff, opens_iff_exists_headerReading]
    cases readings with
    | nil =>
        constructor
        · intro found
          cases found
        · rintro ⟨address, reading⟩
          cases (complete address name).mpr reading
    | cons first others =>
        have taken := (complete first.1 first.2).mp List.mem_cons_self
        constructor
        · intro found
          cases found
          exact ⟨first.1, taken⟩
        · rintro ⟨address, reading⟩
          exact congrArg some (taken.unique reading).2

/-- Brackets and colons belong to the address, and a second name follows. -/
theorem header_read_in_one_way_bracketedAddress :
    header? "a<b>: <c>: <d>:".toList = some "c" ∧
    ∀ address name, HeaderReading "a<b>: <c>: <d>:".toList address name →
      address = "a<b>:".toList ∧ name = "c" := by
  have scanned : header? "a<b>: <c>: <d>:".toList = some "c" := by decide
  rcases header_read_in_one_way "a<b>: <c>: <d>:".toList with ⟨accepts, once, _⟩
  rcases (accepts "c").mp scanned with ⟨found, reading⟩
  have bracketed : "a<b>:".toList = found := reading.address_eq
  refine ⟨scanned, ?_⟩
  intro address name other
  rw [bracketed]
  exact once address found name "c" other reading

/-! ## Mentions -/

/-- The scanner for mentions finds the leftmost name in brackets, and fails only on lines that
have none.  It finds the same name in a line and in the trimmed line. -/
theorem mention_found_leftmost (line : List Char) :
    (∀ name, leftmostName? line = some name ↔ BracketsFirst line name) ∧
    (leftmostName? line = none ↔ ¬ ∃ before name, BracketsAfter line before name) ∧
    leftmostName? (Text.trim line) = leftmostName? line := by
  refine ⟨fun name => leftmostName?_eq_some_iff, ?_, ?_⟩
  · rw [Option.eq_none_iff_forall_ne_some]
    constructor
    · rintro unfound ⟨before, name, bracket⟩
      rcases bracket.exists_first with ⟨first, other, found, least⟩
      exact unfound other (leftmostName?_eq_some_iff.mpr ⟨first, found, least⟩)
    · intro none name found
      rcases leftmostName?_eq_some_iff.mp found with ⟨before, bracket, _⟩
      exact none ⟨before, name, bracket⟩
  · ext name
    rw [leftmostName?_eq_some_iff, leftmostName?_eq_some_iff, bracketsFirst_trim_iff]

example : leftmostName? "\t<> <a<b+4> <<f> <g> <".toList = some "f" := by decide

end Listing
end Deadwood
