import Std.Data.ExtTreeSet

namespace Deadwood

/-!
# Texts and names

A text is a list of characters, and it is stored as bytes.  What is read from
outside is cut into lines under the three usual line ends and trimmed of blanks.
The names that are found in it are kept in sets.
-/

namespace Text

/-! ## Blanks

A character is blank when it separates words of running text.  The class is the
white space of Unicode together with the four information separators U+001C to
U+001F, so it is wider than the blanks of ASCII.  Tokens, symbol names and
listing lines are all trimmed by this one class.
-/

/-- Closed ranges of blank code points, ascending and disjoint. -/
def blankRanges : List (Nat × Nat) :=
  [(0x0009, 0x000D), (0x001C, 0x0020), (0x0085, 0x0085), (0x00A0, 0x00A0),
   (0x1680, 0x1680), (0x2000, 0x200A), (0x2028, 0x2029), (0x202F, 0x202F),
   (0x205F, 0x205F), (0x3000, 0x3000)]

def isBlank (c : Char) : Bool :=
  blankRanges.any fun range => range.1 ≤ c.toNat && c.toNat ≤ range.2

/-- Remove the blanks at both ends.  Blanks between other characters stay. -/
def trim (text : List Char) : List Char :=
  ((text.dropWhile isBlank).reverse.dropWhile isBlank).reverse

theorem trim_nil : trim [] = [] := rfl

example : trim "\u2003 \ta b\u3000".toList = "a b".toList := by decide

example : trim "\u200B_".toList = "\u200B_".toList := by decide

/-! ## Lines

A line end closes the line before it, so a text that ends with one has no further
empty line after it.  No other character ends a line: form feeds and the
separators of Unicode are ordinary characters here.
-/

/-- The pieces between the occurrences of `separator`, one more than there are
occurrences.  Characters and bytes are cut in the same way. -/
def pieces {α : Type} [DecidableEq α] (separator : α) : List α → List (List α)
  | [] => [[]]
  | c :: text =>
      if c = separator then [] :: pieces separator text
      else (pieces separator text).modifyHead (c :: ·)

/-- Replace a carriage return, with the line feed that follows it if there is
one, by a single line feed. -/
def foldLineEnds : List Char → List Char
  | '\r' :: '\n' :: text => '\n' :: foldLineEnds text
  | c :: text => (if c = '\r' then '\n' else c) :: foldLineEnds text
  | [] => []

/-- The lines of a text whose only line end is the line feed. -/
def feedLines (text : List Char) : List (List Char) :=
  let cut := pieces '\n' text
  if cut.getLast? = some [] then cut.dropLast else cut

/-- The trimmed lines of a text under any mixture of line ends. -/
def trimmedLines (text : List Char) : List (List Char) :=
  (feedLines (foldLineEnds text)).map trim

theorem pieces_ne_nil {α : Type} [DecidableEq α] (separator : α) (text : List α) :
    pieces separator text ≠ [] := by
  induction text with
  | nil => simp [pieces]
  | cons c text ih =>
      simp only [pieces]
      split
      · simp
      · cases rest : pieces separator text with
        | nil => exact absurd rest ih
        | cons first others => simp

example : trimmedLines "a\r\n\r b \n\n".toList =
    ["a".toList, [], "b".toList, []] := by decide

/-! ## Bytes -/

/-- The bytes that store a text as UTF-8. -/
def encode (text : List Char) : List UInt8 :=
  text.flatMap String.utf8EncodeChar

/-- The characters of a text stored as strict UTF-8; `none` for every other
sequence of bytes.  A byte order mark is kept as a character. -/
def decode? (bytes : ByteArray) : Option (List Char) :=
  (String.fromUTF8? bytes).map String.toList

end Text

/-! ## Sets of names

Names are compared as texts, code point by code point.  A set of names is
extensional: two sets with the same members are equal, and its members are
listed in ascending order.
-/

abbrev NameSet := Std.ExtTreeSet String

namespace NameSet

def ofList (names : List String) : NameSet :=
  Std.ExtTreeSet.ofList names

@[simp] theorem mem_ofList {name : String} {names : List String} :
    name ∈ ofList names ↔ name ∈ names := by
  simp [ofList, Std.ExtTreeSet.mem_ofList]

end NameSet
end Deadwood
