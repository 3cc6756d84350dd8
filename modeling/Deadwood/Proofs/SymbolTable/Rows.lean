import Deadwood.Proofs.Text.Decoding
import Deadwood.SymbolTable

namespace Deadwood
namespace SymbolTable

/-!
# Rows of a symbol table

What the scanners of a symbol table compute is described here by decomposition of
a row: the function mark may stand at any place, also after marks that lead
nowhere, and the last field is what stands between the last two gaps.  A row is a
sequence of bytes, and of all rows only the last fields of function rows have to be
text.  If they are, then what is read of the table are the lines that its function
rows yield one by one, because every row closes the lines that it contributes.
-/

/-- The function mark, a space and `gap` spaces more, and the name of the text
section. -/
def functionMark (gap : Nat) : List Char :=
  'F' :: ' ' :: (List.replicate gap ' ' ++ ".text".toList)

/-- The function mark stands somewhere in the row. -/
def HasFunctionMark (row : List UInt8) : Prop :=
  ∃ front gap back, row = front ++ (Text.encode (functionMark gap) ++ back)

/-- `field` is the last of the fields of a row; it is empty only if the row has
none at all. -/
def EndsWithField (row field : List UInt8) : Prop :=
  (∀ byte ∈ field, dividesFields byte = false) ∧
  ∃ front gaps, row = front ++ (field ++ gaps) ∧ (∀ byte ∈ gaps, dividesFields byte = true) ∧
    (∀ byte ∈ front.getLast?, dividesFields byte = true) ∧ (field = [] → front = [])

/-- A function row of the table contributes this line.  The last field of the row is
text, whatever the other fields are. -/
def Yields (table : ByteArray) (line : List Char) : Prop :=
  ∃ row ∈ table.data.toList.splitOn '\n'.toUInt8, HasFunctionMark row ∧
    ∃ field, EndsWithField row (Text.encode field) ∧ line ∈ Text.lines (field ++ ['\n'])

/-! ## The function mark -/

theorem encode_functionMark (gap : Nat) :
    Text.encode (functionMark gap) = 'F'.toUInt8 :: ' '.toUInt8 ::
      (List.replicate gap ' '.toUInt8 ++ Text.encode ".text".toList) := by
  have spaces : Text.encode (List.replicate gap ' ') = List.replicate gap ' '.toUInt8 := by
    induction gap with
    | zero => rfl
    | succ gap ih =>
        rw [List.replicate_succ, Text.encode_cons, ih]
        rfl
  rw [functionMark, Text.encode_cons, Text.encode_cons, Text.encode_append, spaces]
  rfl

theorem beginsWithSection_iff {row : List UInt8} :
    beginsWithSection row = true ↔
      ∃ gap back, row =
        List.replicate gap ' '.toUInt8 ++ (Text.encode ".text".toList ++ back) := by
  rw [beginsWithSection, List.isPrefixOf_iff_prefix]
  constructor
  · rintro ⟨back, ends⟩
    have spaces : row.takeWhile (· = ' '.toUInt8) =
        List.replicate (row.takeWhile (· = ' '.toUInt8)).length ' '.toUInt8 := by
      apply List.eq_replicate_iff.mpr
      exact ⟨rfl, fun byte member => by simpa using List.mem_takeWhile_imp member⟩
    refine ⟨(row.takeWhile (· = ' '.toUInt8)).length, back, ?_⟩
    rw [ends, ← spaces, List.takeWhile_append_dropWhile]
  · rintro ⟨gap, back, rfl⟩
    refine ⟨back, ?_⟩
    rw [List.dropWhile_append_of_pos (by simp)]
    rfl

/-- The scanner finds the mark wherever it stands. -/
theorem isFunctionRow_iff {row : List UInt8} :
    isFunctionRow row = true ↔ HasFunctionMark row := by
  unfold HasFunctionMark
  simp only [encode_functionMark]
  induction row using isFunctionRow.induct with
  | case1 mark space row ih =>
      simp only [isFunctionRow, Bool.or_eq_true, Bool.and_eq_true, decide_eq_true_eq,
        beginsWithSection_iff, ih]
      constructor
      · rintro (⟨⟨rfl, rfl⟩, gap, back, rfl⟩ | ⟨front, gap, back, rest⟩)
        · exact ⟨[], gap, back, by simp⟩
        · exact ⟨mark :: front, gap, back, congrArg (mark :: ·) rest⟩
      · rintro ⟨front, gap, back, same⟩
        cases front with
        | nil =>
            simp only [List.nil_append, List.cons_append, List.cons.injEq,
              List.append_assoc] at same
            exact Or.inl ⟨⟨same.1, same.2.1⟩, gap, back, same.2.2⟩
        | cons first front => exact Or.inr ⟨front, gap, back, (List.cons.inj same).2⟩
  | case2 row short =>
      constructor
      · intro marked
        rw [isFunctionRow] at marked
        · cases marked
        · exact short
      · rintro ⟨front, gap, back, same⟩
        -- A row of fewer than two bytes has no room for the mark.
        match front with
        | [] => exact absurd same (short _ _ _)
        | [_] => exact absurd same (short _ _ _)
        | _ :: _ :: _ => exact absurd same (short _ _ _)

/-! ## The last field -/

theorem endsWithField_lastField (row : List UInt8) : EndsWithField row (lastField row) := by
  let trailing := row.reverse.takeWhile dividesFields
  let rest := row.reverse.dropWhile dividesFields
  let before := rest.dropWhile (!dividesFields ·)
  have solid : ∀ byte ∈ rest.takeWhile (!dividesFields ·), dividesFields byte = false := by
    intro byte member
    simpa using List.mem_takeWhile_imp member
  refine ⟨?_, before.reverse, trailing.reverse, ?_, ?_, ?_, ?_⟩
  · intro byte member
    exact solid byte (List.mem_reverse.mp member)
  · have whole : trailing ++ (rest.takeWhile (!dividesFields ·) ++ before) = row.reverse := by
      rw [List.takeWhile_append_dropWhile, List.takeWhile_append_dropWhile]
    rw [lastField, ← List.reverse_append, ← List.reverse_append, List.append_assoc, whole,
      List.reverse_reverse]
  · intro byte member
    exact List.mem_takeWhile_imp (List.mem_reverse.mp member)
  · intro byte member
    rw [List.getLast?_reverse] at member
    have boundary := List.head?_dropWhile_not (!dividesFields ·) rest
    rw [member] at boundary
    simpa using boundary
  · intro empty
    -- Dropping gaps leaves nothing or stops at a byte that begins a field.
    have untaken : rest.takeWhile (!dividesFields ·) = [] := List.reverse_eq_nil_iff.mp empty
    have boundary := List.head?_dropWhile_not dividesFields row.reverse
    cases start : rest with
    | nil => simp [before, start]
    | cons byte others =>
        have ends : dividesFields byte = false := by simpa [rest, start] using boundary
        simp [start, ends] at untaken

theorem lastField_eq_of_endsWithField {row field : List UInt8} (ends : EndsWithField row field) :
    lastField row = field := by
  rcases ends with ⟨solid, front, gaps, rfl, blank, boundary, alone⟩
  have spaces : ∀ byte ∈ gaps.reverse, dividesFields byte = true :=
    fun byte member => blank byte (List.mem_reverse.mp member)
  have bytes : ∀ byte ∈ field.reverse, (!dividesFields byte) = true :=
    fun byte member => by simp [solid byte (List.mem_reverse.mp member)]
  have dropped : (field.reverse ++ front.reverse).dropWhile dividesFields =
      field.reverse ++ front.reverse := by
    cases start : field.reverse with
    | nil => simp [alone (List.reverse_eq_nil_iff.mp start)]
    | cons byte others =>
        have head := bytes byte (by simp [start])
        exact List.dropWhile_cons_of_neg (by simpa using head)
  have stopped : front.reverse.takeWhile (!dividesFields ·) = [] := by
    cases start : front.reverse with
    | nil => rfl
    | cons byte others =>
        have gap := boundary byte (by rw [← List.head?_reverse, start]; rfl)
        exact List.takeWhile_cons_of_neg (by simp [gap])
  rw [lastField, List.reverse_append, List.reverse_append, List.append_assoc,
    List.dropWhile_append_of_pos spaces, dropped, List.takeWhile_append_of_pos bytes,
    stopped, List.append_nil, List.reverse_reverse]

theorem endsWithField_iff {row field : List UInt8} :
    EndsWithField row field ↔ lastField row = field := by
  constructor
  · exact lastField_eq_of_endsWithField
  · rintro rfl
    exact endsWithField_lastField row

/-! ## What is read of a table -/

/-- The last fields of the function rows, in the order of the rows. -/
def pickedFields (table : ByteArray) : List (List UInt8) :=
  ((table.data.toList.splitOn '\n'.toUInt8).filter isFunctionRow).map lastField

theorem mem_pickedFields_iff {table : ByteArray} {field : List UInt8} :
    field ∈ pickedFields table ↔ ∃ row ∈ table.data.toList.splitOn '\n'.toUInt8,
      HasFunctionMark row ∧ EndsWithField row field := by
  simp only [pickedFields, List.mem_map, List.mem_filter, isFunctionRow_iff, endsWithField_iff,
    and_assoc]

/-- What is left of a table can be read exactly if each of the picked fields is text. -/
theorem decode?_functionFields_eq_some_iff {table : ByteArray} {text : List Char} :
    Text.decode? (functionFields table) = some text ↔
      ∃ fields : List (List Char), pickedFields table = fields.map Text.encode ∧
        text = fields.flatMap (· ++ ['\n']) := by
  have feed : String.utf8EncodeChar '\n' = ['\n'.toUInt8] := by decide
  have closed : functionFields table =
      ((pickedFields table).flatMap (· ++ ['\n'.toUInt8])).toByteArray := by
    rw [functionFields, pickedFields, List.flatMap_map, Text.pieces_eq_splitOn]
  rw [closed, Text.decode?_toByteArray_eq_some_iff, Text.flatMap_concat_eq_encode_iff feed]

/-- The lines that are read for names come from single function rows, since every
last field is closed by a line feed. -/
theorem mem_lines_iff_yields {table : ByteArray} {text line : List Char}
    (read : Text.decode? (functionFields table) = some text) :
    line ∈ Text.lines text ↔ Yields table line := by
  rcases decode?_functionFields_eq_some_iff.mp read with ⟨fields, picked, rfl⟩
  have listed {field : List Char} : field ∈ fields ↔ Text.encode field ∈ pickedFields table := by
    rw [picked, List.mem_map]
    simp only [Text.encode_inj, exists_eq_right]
  rw [Text.mem_lines_flatMap]
  constructor
  · rintro ⟨field, member, contributes⟩
    rcases mem_pickedFields_iff.mp (listed.mp member) with ⟨row, present, marked, ends⟩
    exact ⟨row, present, marked, field, ends, contributes⟩
  · rintro ⟨row, present, marked, field, ends, contributes⟩
    exact ⟨field, listed.mpr (mem_pickedFields_iff.mpr ⟨row, present, marked, ends⟩), contributes⟩

/-- The names of a table are the trimmed lines that its function rows yield. -/
theorem mem_names {table : ByteArray} {text : List Char} {name : String}
    (read : Text.decode? (functionFields table) = some text) :
    name ∈ names text ↔ ∃ line, Yields table line ∧ String.ofList (Text.trim line) = name := by
  rw [names, NameSet.mem_ofList, Text.trimmedLines_eq_map_lines, List.map_map, List.mem_map]
  exact exists_congr fun line => and_congr_left fun _ => mem_lines_iff_yields read

end SymbolTable
end Deadwood
