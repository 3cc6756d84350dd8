import Deadwood.Binary
import Deadwood.Proofs.Listing.Grammar
import Deadwood.Proofs.SymbolTable.Rows

namespace Deadwood
namespace SymbolTable

/-!
# Names in a symbol table

A symbol table is read in two passes that do not agree about line ends.  The first one cuts it
into rows at line feeds, and picks the last field of each function row.  The second one reads
these fields as lines of their own, under all line ends, so it cuts them again at carriage
returns.  The two passes do not agree about blanks either: the first one knows spaces and
tabs, the second one trims all blanks there are.  And only the second one knows characters.

If the whole table is text, then the first pass may be described by characters as well, because
all that it looks for takes a single byte.  For a proper name the two passes then amount to a
plain condition.  All that they leave out or add on the way is empty lines, and an empty line
is no proper name.
-/

/-- The row has the function mark, a space or more, and the text section. -/
def MarksFunction (row : List Char) : Prop :=
  ∃ front gap back,
    row = front ++ 'F' :: ' ' :: (List.replicate gap ' ' ++ (".text".toList ++ back))

/-- Spaces and tabs divide the fields of a row. -/
def isFieldGap (c : Char) : Bool :=
  c = ' ' || c = '\t'

/-- The last field of a row of text, empty if the row has none. -/
def lastText (row : List Char) : List Char :=
  (Text.runs isFieldGap row).getLast?.getD []

/-! ## The first pass on text -/

/-- The mark begins with a character of a single byte, so it is not found anywhere else. -/
theorem hasFunctionMark_encode_iff {row : List Char} :
    HasFunctionMark (Text.encode row) ↔ MarksFunction row := by
  have spread (gap : Nat) (back : List Char) : functionMark gap ++ back =
      'F' :: ' ' :: (List.replicate gap ' ' ++ (".text".toList ++ back)) := by
    simp [functionMark]
  simp only [MarksFunction, ← spread]
  constructor
  · rintro ⟨front, gap, back, stored⟩
    have single : String.utf8EncodeChar 'F' = ['F'.toUInt8] := by decide
    rcases Text.exists_of_encode_eq_append_encode single stored with ⟨before, after, same, _, _⟩
    exact ⟨before, gap, after, same⟩
  · rintro ⟨front, gap, back, rfl⟩
    exact ⟨Text.encode front, gap, Text.encode back, by simp only [Text.encode_append]⟩

theorem isFieldGap_storedBy : Text.StoredBy isFieldGap dividesFields := by
  have space : String.utf8EncodeChar ' ' = [' '.toUInt8] := by decide
  have tab : String.utf8EncodeChar '\t' = ['\t'.toUInt8] := by decide
  exact (Text.storedBy_of_single space).or (Text.storedBy_of_single tab)

theorem getLast?_runs_of_endsWithField {row field : List UInt8} (nonempty : field ≠ [])
    (ends : EndsWithField row field) : (Text.runs dividesFields row).getLast? = some field := by
  rcases ends with ⟨solid, front, gaps, rfl, blank, boundary, _⟩
  have alone := Text.runs_of_undivided nonempty solid
  have closing : Text.runs dividesFields (field ++ gaps) = [field] := by
    cases gaps with
    | nil =>
        rw [List.append_nil]
        exact alone
    | cons gap gaps =>
        rcases List.forall_mem_cons.mp blank with ⟨first, following⟩
        rw [Text.runs_append_cons field gaps first, alone, Text.runs_of_divided following,
          List.append_nil]
  rcases List.eq_nil_or_concat front with rfl | ⟨start, gap, rfl⟩
  · rw [List.nil_append, closing]
    rfl
  · have divided : dividesFields gap = true := boundary gap (by simp)
    rw [List.concat_eq_append, List.append_assoc, List.singleton_append,
      Text.runs_append_cons start _ divided, closing, List.getLast?_concat]

/-- The last field of a row is the last run between gaps. -/
theorem getLast?_runs_getD (row : List UInt8) :
    (Text.runs dividesFields row).getLast?.getD [] = lastField row := by
  have ends := endsWithField_lastField row
  by_cases empty : lastField row = []
  · -- Then the row consists of gaps, and there is no last run.
    rcases ends with ⟨_, front, gaps, whole, blank, _, alone⟩
    rw [empty, alone empty, List.nil_append, List.nil_append] at whole
    rw [empty, whole, Text.runs_of_divided blank]
    rfl
  · rw [getLast?_runs_of_endsWithField empty ends, Option.getD_some]

theorem lastField_encode (row : List Char) :
    lastField (Text.encode row) = Text.encode (lastText row) := by
  rw [← getLast?_runs_getD, Text.runs_encode isFieldGap_storedBy, List.getLast?_map, lastText]
  cases (Text.runs isFieldGap row).getLast? with
  | none => rfl
  | some field => rfl

theorem splitOn_feed_encode (text : List Char) :
    (Text.encode text).splitOn '\n'.toUInt8 = (text.splitOn '\n').map Text.encode := by
  have single : String.utf8EncodeChar '\n' = ['\n'.toUInt8] := by decide
  exact Text.splitOnP_encode (Text.storedBy_of_single single) text

section

variable {table : ByteArray} {text : List Char}

/-- From a table that is text nothing is picked that is not. -/
theorem exists_decode?_functionFields (stored : Text.decode? table = some text) :
    ∃ fields, Text.decode? (functionFields table) = some fields := by
  refine ⟨_, decode?_functionFields_eq_some_iff.mpr
    ⟨((text.splitOn '\n').filter (isFunctionRow ∘ Text.encode)).map lastText, ?_, rfl⟩⟩
  rw [pickedFields, Text.decode?_eq_some_iff.mp stored, splitOn_feed_encode, List.filter_map,
    List.map_map, List.map_map]
  apply List.map_congr_left
  intro row _
  exact lastField_encode row

theorem yields_iff {line : List Char} (stored : Text.decode? table = some text) :
    Yields table line ↔ ∃ row ∈ text.splitOn '\n', MarksFunction row ∧
      line ∈ Text.lines (lastText row ++ ['\n']) := by
  have last {row field : List Char} : EndsWithField (Text.encode row) (Text.encode field) ↔
      lastText row = field := by
    rw [endsWithField_iff, lastField_encode, Text.encode_inj]
  simp only [Yields, Text.decode?_eq_some_iff.mp stored, splitOn_feed_encode, List.mem_map,
    exists_exists_and_eq_and, hasFunctionMark_encode_iff, last, exists_eq_left']

/-! ## The second pass -/

/-- Apart from empty lines, a field is cut at its carriage returns. -/
theorem mem_lines_field_iff {field line : List Char} (feedless : '\n' ∉ field)
    (nonempty : line ≠ []) :
    line ∈ Text.lines (field ++ ['\n']) ↔ line ∈ field.splitOn '\r' := by
  have agree : ∀ c ∈ field, Text.isLineEnd c = (c == '\r') := by
    intro c member
    have different : c ≠ '\n' := ne_of_mem_of_not_mem member feedless
    simp [Text.isLineEnd, different, beq_eq_decide]
  have cut : Text.runs Text.isLineEnd (field ++ ['\n']) = Text.runs (· == '\r') field := by
    rw [Text.runs_append_cons field [] rfl, Text.runs_congr agree]
    exact List.append_nil _
  rw [Text.mem_lines_iff nonempty, cut, Text.mem_runs, List.splitOn_eq_splitOnP]
  exact and_iff_left nonempty

/-- What the second pass gets from a row, apart from empty lines. -/
theorem mem_lines_lastText_iff {row line : List Char} (feedless : '\n' ∉ row)
    (nonempty : line ≠ []) :
    line ∈ Text.lines (lastText row ++ ['\n']) ↔
      ∃ field, (Text.runs isFieldGap row).getLast? = some field ∧ line ∈ field.splitOn '\r' := by
  rw [lastText]
  cases last : (Text.runs isFieldGap row).getLast? with
  | none =>
      refine iff_of_false ?_ nofun
      intro member
      exact nonempty (List.mem_singleton.mp member)
  | some field =>
      have inside : '\n' ∉ field := by
        intro divided
        have piece := (Text.mem_runs.mp (List.mem_of_getLast? last)).1
        exact feedless (Text.forall_mem_of_mem_splitOnP piece '\n' divided).1
      rw [Option.getD_some, mem_lines_field_iff inside nonempty]
      simp only [Option.some.injEq, exists_eq_left']

/-- The proper names of a table are found in the last fields of its function rows. -/
theorem mem_names_iff {fields : List Char} {name : String} (proper : Listing.IsName name)
    (stored : Text.decode? table = some text)
    (read : Text.decode? (functionFields table) = some fields) :
    name ∈ names fields ↔ ∃ row ∈ text.splitOn '\n', MarksFunction row ∧
      ∃ field, (Text.runs isFieldGap row).getLast? = some field ∧
        ∃ piece ∈ field.splitOn '\r', String.ofList (Text.trim piece) = name := by
  have filled {line : List Char} (named : String.ofList (Text.trim line) = name) : line ≠ [] := by
    rintro rfl
    rw [Text.trim_nil] at named
    exact proper.1 (by rw [← named]; rfl)
  have feedless {row : List Char} (member : row ∈ text.splitOn '\n') : '\n' ∉ row := by
    intro divided
    exact absurd (Text.forall_mem_of_mem_splitOnP member '\n' divided).2 (by decide)
  rw [mem_names read]
  simp only [yields_iff stored]
  constructor
  · rintro ⟨line, ⟨row, member, marked, contributes⟩, named⟩
    rcases (mem_lines_lastText_iff (feedless member) (filled named)).mp contributes with
      ⟨field, last, piece⟩
    exact ⟨row, member, marked, field, last, line, piece, named⟩
  · rintro ⟨row, member, marked, field, last, line, piece, named⟩
    exact ⟨line, ⟨row, member, marked,
      (mem_lines_lastText_iff (feedless member) (filled named)).mpr ⟨field, last, piece⟩⟩, named⟩

end

end SymbolTable

/-- A stored symbol table is read, and it contributes exactly the proper names that its function
rows have in their last fields.  The mark of a function row may stand anywhere in it.  The
fields of a row are divided by spaces and tabs, and the names in a field by carriage
returns, and a name may have blanks of any other kind around it. -/
theorem symbols_read_from_function_rows {binary : Binary} {table : String}
    (stored : binary.symbolTable = table.toUTF8) :
    ∃ symbols, binary.symbols? = some symbols ∧
      ∀ name, Listing.IsName name → (name ∈ symbols ↔
        ∃ row ∈ table.toList.splitOn '\n', SymbolTable.MarksFunction row ∧
          ∃ field, (Text.runs SymbolTable.isFieldGap row).getLast? = some field ∧
            ∃ piece ∈ field.splitOn '\r', String.ofList (Text.trim piece) = name) := by
  have decoded : Text.decode? binary.symbolTable = some table.toList := by
    rw [Text.decode?_eq_some_iff, stored, Text.toList_toUTF8]
  rcases SymbolTable.exists_decode?_functionFields decoded with ⟨fields, read⟩
  refine ⟨SymbolTable.names fields, ?_, ?_⟩
  · rw [Binary.symbols?, read, Option.map_some]
  · intro name proper
    exact SymbolTable.mem_names_iff proper decoded read

/-- A mark that leads nowhere before the one that counts, a tab before the last field, and in it
a carriage return and a blank that is neither space nor tab. -/
def dividedField : String :=
  "1 F F  .text\tx\r\u00A0b_1 \n2 F .data 0 c\n"

theorem symbols_read_from_function_rows_dividedField :
    ∃ symbols, Binary.symbols? { symbolTable := dividedField.toUTF8 } = some symbols ∧
      "b_1" ∈ symbols := by
  have stored : ({ symbolTable := dividedField.toUTF8 } : Binary).symbolTable =
      dividedField.toUTF8 := rfl
  rcases symbols_read_from_function_rows stored with ⟨symbols, read, members⟩
  refine ⟨symbols, read, (members "b_1" (by decide)).mpr ?_⟩
  refine ⟨"1 F F  .text\tx\r\u00A0b_1 ".toList, by decide, ?_, "x\r\u00A0b_1".toList, by decide, ?_⟩
  · exact ⟨"1 F ".toList, 1, "\tx\r\u00A0b_1 ".toList, by decide⟩
  · exact ⟨"\u00A0b_1".toList, by decide, by decide⟩

end Deadwood
