import Deadwood.Text

namespace Deadwood
namespace SymbolTable

/-!
# Symbol tables

A symbol table lists one symbol a row.  The rows of functions in the text
section carry the mark `F` and, after some spaces, the name of the section; the
last field of such a row is the symbol's name.

Rows are picked and cut as bytes: they end at line feeds, and spaces and tabs
divide their fields.  Only what is left then, the last fields of the function
rows, is decoded.  So bytes that are no text do no harm in other rows and in
other fields.  This is how the picking goes where every byte is a character.  In
other locales the picker may hold back function rows that are no text, and
anywhere it may hold back rows of a table with a zero byte.  Both are left out here.

Names are then read under all line ends and trimmed of all blanks, so a carriage
return inside a last field divides it into several names, and a name may even be
empty.
-/

/-- Whether a row begins with any number of spaces and the name of the text
section. -/
def beginsWithSection (row : List UInt8) : Bool :=
  (Text.encode ".text".toList).isPrefixOf (row.dropWhile (· = ' '.toUInt8))

/-- Whether a row has the function mark, a space or more, and the name of the
text section at any place. -/
def isFunctionRow : List UInt8 → Bool
  | mark :: space :: row =>
      (mark = 'F'.toUInt8 && space = ' '.toUInt8 && beginsWithSection row) ||
        isFunctionRow (space :: row)
  | _ => false

/-- Spaces and tabs divide the fields of a row. -/
def dividesFields (byte : UInt8) : Bool :=
  byte = ' '.toUInt8 || byte = '\t'.toUInt8

/-- The last field of a row, empty if the row has none. -/
def lastField (row : List UInt8) : List UInt8 :=
  ((row.reverse.dropWhile dividesFields).takeWhile (!dividesFields ·)).reverse

/-- The last fields of the function rows, each as a line of its own. -/
def functionFields (table : ByteArray) : ByteArray :=
  (((Text.pieces '\n'.toUInt8 table.data.toList).filter isFunctionRow).flatMap fun row =>
    lastField row ++ ['\n'.toUInt8]).toByteArray

/-- The names of the functions in the text section, from what `functionFields`
has left of the table. -/
def names (fields : List Char) : NameSet :=
  .ofList ((Text.trimmedLines fields).map String.ofList)

example : functionFields "0 g F  .text 0 main \n0 g O .text 0 table\n0 F F .text 0 a\rb".toUTF8 =
    "main\na\rb\n".toUTF8 := by decide

example : names "main\na\rb\n".toList = .ofList ["main", "a", "b"] := by decide +kernel

end SymbolTable
end Deadwood
