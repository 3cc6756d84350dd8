import Deadwood.Listing
import Deadwood.Proofs.Text.Lines

namespace Deadwood
namespace Listing

/-!
# The grammar of listing lines

The scanners of a listing decide by taking and dropping characters.  Here the
lines they accept are described by decomposition instead: a header is an address,
a blank, a name in angle brackets and a colon, and a bracketed name is preceded
and followed by any text at all.  Both scanners are proved to accept exactly these
lines and to return exactly this name.

A name is followed by a character that cannot belong to it.  This alone makes the
decomposition of a bracket unique, so no choice between longer and shorter names
ever arises.
-/

/-- At least one character, and only letters and digits of ASCII or underscores. -/
def IsName (name : String) : Prop :=
  name.toList ≠ [] ∧ ∀ c ∈ name.toList, isNameChar c = true

instance (name : String) : Decidable (IsName name) :=
  decidable_of_iff (name.toList ≠ [] ∧ name.toList.all isNameChar = true) (by simp [IsName])

/-- The line opens the code of the function `name`. -/
def Opens (line : List Char) (name : String) : Prop :=
  IsName name ∧ ∃ address rest,
    address ≠ [] ∧ (∀ c ∈ address, Text.isBlank c = false) ∧
    line = address ++ ' ' :: '<' :: (name.toList ++ '>' :: ':' :: rest)

/-- The text `before` on a line is followed by `name` in angle brackets. -/
def BracketsAfter (line before : List Char) (name : String) : Prop :=
  IsName name ∧ ∃ after, line = before ++ '<' :: (name.toList ++ '>' :: after)

/-- No bracketed name on the line begins before this one. -/
def BracketsFirst (line : List Char) (name : String) : Prop :=
  ∃ before, BracketsAfter line before name ∧
    ∀ earlier other, BracketsAfter line earlier other → before.length ≤ earlier.length

/-! ## A name at the beginning of a text -/

private theorem isNameChar_close : isNameChar '>' = false := by
  decide

/-- The scanned name is the one between the bracket and the closing text, since
the closing text does not begin with a character of names. -/
theorem bracketedName?_eq_some_iff {mark : Char} {closing text : List Char} {name : String}
    (ends : isNameChar mark = false) :
    bracketedName? (mark :: closing) text = some name ↔
      IsName name ∧ ∃ rest, text = '<' :: (name.toList ++ mark :: (closing ++ rest)) := by
  constructor
  · intro found
    unfold bracketedName? at found
    split at found
    · rename_i text
      simp only [Option.ite_none_right_eq_some, Option.some.injEq] at found
      rcases found with ⟨⟨nonempty, closed⟩, same⟩
      rcases List.isPrefixOf_iff_prefix.mp closed with ⟨rest, tail⟩
      subst same
      rw [IsName, String.toList_ofList]
      refine ⟨⟨nonempty, fun c member => List.mem_takeWhile_imp member⟩, rest, ?_⟩
      have whole := List.takeWhile_append_dropWhile (p := isNameChar) (l := text)
      rw [← tail] at whole
      exact congrArg ('<' :: ·) whole.symm
    · cases found
  · rintro ⟨⟨nonempty, characters⟩, rest, rfl⟩
    have taken : (name.toList ++ mark :: (closing ++ rest)).takeWhile isNameChar =
        name.toList := by
      rw [List.takeWhile_append_of_pos characters, List.takeWhile_cons_of_neg (by simp [ends]),
        List.append_nil]
    have dropped : (name.toList ++ mark :: (closing ++ rest)).dropWhile isNameChar =
        mark :: (closing ++ rest) := by
      rw [List.dropWhile_append_of_pos characters, List.dropWhile_cons_of_neg (by simp [ends])]
    have closed : (mark :: closing).isPrefixOf (mark :: (closing ++ rest)) = true :=
      List.isPrefixOf_iff_prefix.mpr ⟨rest, rfl⟩
    simp only [bracketedName?, taken, dropped, closed, nonempty, ne_eq, not_false_eq_true,
      and_self, if_true, String.ofList_toList]

/-! ## Headers -/

/-- An address goes as far as the first blank. -/
theorem takeWhile_address {address : List Char}
    (solid : ∀ c ∈ address, Text.isBlank c = false) (rest : List Char) :
    (address ++ ' ' :: rest).takeWhile (!Text.isBlank ·) = address := by
  rw [List.takeWhile_append_of_pos (by simpa using solid),
    List.takeWhile_cons_of_neg (by decide), List.append_nil]

/-- The header scanner returns the name of a line exactly if the line opens the
code of that name. -/
theorem header?_eq_some_iff {line : List Char} {name : String} :
    header? line = some name ↔ Opens line name := by
  constructor
  · intro found
    unfold header? at found
    split at found
    · rename_i first address text taken dropped
      rcases (bracketedName?_eq_some_iff isNameChar_close).mp found with ⟨named, rest, same⟩
      refine ⟨named, first :: address, rest, by simp, ?_, ?_⟩
      · intro c member
        rw [← taken] at member
        simpa using List.mem_takeWhile_imp member
      · have whole := List.takeWhile_append_dropWhile (p := (!Text.isBlank ·)) (l := line)
        rw [taken, dropped, same] at whole
        rw [← whole]
        rfl
    · cases found
  · rintro ⟨named, address, rest, nonempty, solid, rfl⟩
    have taken := takeWhile_address solid ('<' :: (name.toList ++ '>' :: ':' :: rest))
    have dropped : (address ++ ' ' :: '<' :: (name.toList ++ '>' :: ':' :: rest)).dropWhile
        (!Text.isBlank ·) = ' ' :: '<' :: (name.toList ++ '>' :: ':' :: rest) := by
      rw [List.dropWhile_append_of_pos (by simpa using solid),
        List.dropWhile_cons_of_neg (by decide)]
    cases address with
    | nil => exact absurd rfl nonempty
    | cons first address =>
        simp only [header?, taken, dropped]
        exact (bracketedName?_eq_some_iff isNameChar_close).mpr ⟨named, rest, rfl⟩

theorem header?_eq_none_iff {line : List Char} :
    header? line = none ↔ ∀ name, ¬ Opens line name := by
  rw [Option.eq_none_iff_forall_ne_some]
  exact forall_congr' fun name => not_congr header?_eq_some_iff

/-! ## Mentions -/

private theorem bracketsAfter_nil_iff {line : List Char} {name : String} :
    BracketsAfter line [] name ↔ bracketedName? ['>'] line = some name := by
  rw [bracketedName?_eq_some_iff isNameChar_close]
  rfl

private theorem bracketsAfter_cons {c d : Char} {text before : List Char} {name : String} :
    BracketsAfter (c :: text) (d :: before) name ↔ c = d ∧ BracketsAfter text before name := by
  constructor
  · rintro ⟨named, after, same⟩
    rcases List.cons.inj same with ⟨head, tail⟩
    exact ⟨head, named, after, tail⟩
  · rintro ⟨rfl, named, after, rfl⟩
    exact ⟨named, after, rfl⟩

/-- Where a bracket begins, it holds one name only. -/
theorem BracketsAfter.name_unique {line before other : List Char} {name otherName : String}
    (first : BracketsAfter line before name) (second : BracketsAfter line other otherName)
    (level : before.length = other.length) : name = otherName := by
  rcases first with ⟨named, after, same⟩
  rcases second with ⟨otherNamed, otherAfter, otherSame⟩
  have parts := (List.append_inj (same.symm.trans otherSame) level).2
  have read := bracketsAfter_nil_iff.mp ⟨named, after, rfl⟩
  have otherRead := bracketsAfter_nil_iff.mp ⟨otherNamed, otherAfter, rfl⟩
  rw [List.nil_append, parts] at read
  exact Option.some.inj (read.symm.trans otherRead)

/-- The scanner for mentions finds the first bracketed name of a line. -/
theorem leftmostName?_eq_some_iff {line : List Char} {name : String} :
    leftmostName? line = some name ↔ BracketsFirst line name := by
  induction line with
  | nil =>
      constructor
      · intro found
        cases found
      · rintro ⟨before, ⟨_, after, same⟩, _⟩
        simp at same
  | cons c text ih =>
      rw [leftmostName?]
      cases here : bracketedName? ['>'] (c :: text) with
      | some other =>
          have bracket : BracketsAfter (c :: text) [] other := bracketsAfter_nil_iff.mpr here
          rw [Option.some_or, Option.some.injEq]
          constructor
          · rintro rfl
            exact ⟨[], bracket, fun _ _ _ => Nat.zero_le _⟩
          · rintro ⟨before, first, least⟩
            have level : before.length = 0 := Nat.le_zero.mp (least [] other bracket)
            exact bracket.name_unique first level.symm
      | none =>
          -- No bracket begins at `c`, so every one of the line begins in `text`.
          have later : ∀ {before other}, BracketsAfter (c :: text) before other →
              ∃ shorter, before = c :: shorter ∧ BracketsAfter text shorter other := by
            intro before other bracket
            cases before with
            | nil => simp [bracketsAfter_nil_iff, here] at bracket
            | cons d shorter =>
                rcases bracketsAfter_cons.mp bracket with ⟨rfl, inner⟩
                exact ⟨shorter, rfl, inner⟩
          rw [Option.none_or, ih]
          constructor
          · rintro ⟨before, bracket, least⟩
            refine ⟨c :: before, bracketsAfter_cons.mpr ⟨rfl, bracket⟩, ?_⟩
            intro earlier other found
            rcases later found with ⟨shorter, rfl, inner⟩
            exact Nat.succ_le_succ (least shorter other inner)
          · rintro ⟨before, bracket, least⟩
            rcases later bracket with ⟨shorter, rfl, inner⟩
            refine ⟨shorter, inner, ?_⟩
            intro earlier other found
            exact Nat.le_of_succ_le_succ
              (least (c :: earlier) other (bracketsAfter_cons.mpr ⟨rfl, found⟩))

theorem mention?_eq_some_iff {line : List Char} {name : String} :
    mention? line = some name ↔
      (∀ function, ¬ Opens line function) ∧ BracketsFirst line name := by
  rw [mention?, ← leftmostName?_eq_some_iff, ← header?_eq_none_iff]
  cases header? line <;> simp

/-- A line with a bracketed name has a first one. -/
theorem BracketsAfter.exists_first {line before : List Char} {name : String}
    (bracket : BracketsAfter line before name) :
    ∃ first other, BracketsAfter line first other ∧
      ∀ earlier another, BracketsAfter line earlier another → first.length ≤ earlier.length := by
  induction size : before.length using Nat.strong_induction_on generalizing before name with
  | h size ih =>
      by_cases sooner : ∃ earlier another, BracketsAfter line earlier another ∧
          earlier.length < before.length
      · rcases sooner with ⟨earlier, another, found, shorter⟩
        exact ih earlier.length (by omega) found rfl
      · refine ⟨before, name, bracket, fun earlier another found => ?_⟩
        exact Nat.le_of_not_lt fun shorter => sooner ⟨earlier, another, found, shorter⟩

/-- A name is not the first one of a line exactly if another one stands before each
of its occurrences. -/
theorem not_bracketsFirst_iff {line : List Char} {name : String} :
    ¬ BracketsFirst line name ↔
      ∀ before, BracketsAfter line before name → ∃ earlier other,
        BracketsAfter line earlier other ∧ earlier.length < before.length ∧ other ≠ name := by
  constructor
  · intro later before bracket
    rcases bracket.exists_first with ⟨first, other, found, least⟩
    have different : other ≠ name := by
      rintro rfl
      exact later ⟨first, found, least⟩
    refine ⟨first, other, found, Nat.lt_of_le_of_ne (least before name bracket) ?_, different⟩
    intro level
    exact different (found.name_unique bracket level)
  · rintro preceded ⟨before, bracket, least⟩
    rcases preceded before bracket with ⟨earlier, other, found, shorter, _⟩
    exact Nat.not_le.mpr shorter (least earlier other found)

/-! ## Margins -/

/-- A bracketed name never begins in a margin. -/
theorem bracketsAfter_append_left_iff {margin text before : List Char} {name : String}
    (blank : ∀ c ∈ margin, Text.isBlank c = true) :
    BracketsAfter (margin ++ text) before name ↔
      ∃ inner, before = margin ++ inner ∧ BracketsAfter text inner name := by
  constructor
  · rintro ⟨named, after, same⟩
    rcases List.append_eq_append_iff.mp same with ⟨inner, rfl, rest⟩ | ⟨overlap, split, rest⟩
    · exact ⟨inner, rfl, named, after, rest⟩
    · cases overlap with
      | nil => exact ⟨[], by simpa using split.symm, named, after, by simpa using rest.symm⟩
      | cons c overlap =>
          have opening := blank c (by rw [split]; simp)
          rw [← (List.cons.inj rest).1] at opening
          exact absurd opening (by decide)
  · rintro ⟨inner, rfl, named, after, rfl⟩
    exact ⟨named, after, by simp⟩

/-- A bracketed name never ends in a margin. -/
theorem bracketsAfter_append_right_iff {margin text before : List Char} {name : String}
    (blank : ∀ c ∈ margin, Text.isBlank c = true) :
    BracketsAfter (text ++ margin) before name ↔ BracketsAfter text before name := by
  constructor
  · rintro ⟨named, after, same⟩
    refine ⟨named, ?_⟩
    have closed : text ++ margin = ((before ++ '<' :: name.toList) ++ ['>']) ++ after := by
      rw [same]
      simp
    rcases List.append_eq_append_iff.mp closed with ⟨overlap, split, rest⟩ | ⟨tail, split, _⟩
    · have mark : (text ++ overlap).getLast? = some '>' := by
        rw [← split, List.getLast?_concat]
      cases ends : overlap.getLast? with
      | none =>
          rw [List.getLast?_eq_none_iff.mp ends, List.append_nil] at split
          exact ⟨[], by rw [← split]; simp⟩
      | some c =>
          rw [List.getLast?_append, ends, Option.some_or, Option.some.injEq] at mark
          have closing := blank c (by rw [rest]; simp [List.mem_of_getLast? ends])
          rw [mark] at closing
          exact absurd closing (by decide)
    · exact ⟨tail, by rw [split]; simp⟩
  · rintro ⟨named, after, rfl⟩
    exact ⟨named, after ++ margin, by simp⟩

/-- Trimming a line does not change its first bracketed name. -/
theorem bracketsFirst_trim_iff {line : List Char} {name : String} :
    BracketsFirst (Text.trim line) name ↔ BracketsFirst line name := by
  rcases Text.exists_margins line with ⟨left, right, whole, leftBlank, rightBlank⟩
  have shift {before : List Char} {other : String} :
      BracketsAfter line before other ↔
        ∃ inner, before = left ++ inner ∧ BracketsAfter (Text.trim line) inner other := by
    have spread : BracketsAfter line before other ↔
        BracketsAfter (left ++ (Text.trim line ++ right)) before other := by rw [← whole]
    rw [spread, bracketsAfter_append_left_iff leftBlank]
    exact exists_congr fun inner => and_congr_right fun _ =>
      bracketsAfter_append_right_iff rightBlank
  constructor
  · rintro ⟨before, bracket, least⟩
    refine ⟨left ++ before, shift.mpr ⟨before, rfl, bracket⟩, ?_⟩
    intro earlier other found
    rcases shift.mp found with ⟨inner, rfl, within⟩
    have shorter := least inner other within
    rw [List.length_append, List.length_append]
    omega
  · rintro ⟨before, bracket, least⟩
    rcases shift.mp bracket with ⟨inner, rfl, within⟩
    refine ⟨inner, within, ?_⟩
    intro earlier other found
    have shorter := least (left ++ earlier) other (shift.mpr ⟨earlier, rfl, found⟩)
    rw [List.length_append, List.length_append] at shorter
    omega

end Listing
end Deadwood
