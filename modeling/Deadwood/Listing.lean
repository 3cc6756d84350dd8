import Deadwood.Text

namespace Deadwood

/-!
# Disassembly listings

A listing is the disassembly of a binary with its source text in between, read
as trimmed lines.  A header line opens the code of a function: an address
without blanks, one space, the function's name in angle brackets, and a colon.
On every other line the leftmost name in angle brackets is a mention.  Further
names on the same line are not taken.

Names consist of the letters and digits of ASCII and the underscore.  A bracket
that holds anything else, such as an offset, holds no name.
-/

abbrev Listing := List (List Char)

namespace Listing

def isNameChar (c : Char) : Bool :=
  c.isAlphanum || c = '_'

/-- The name with which a text begins, provided that it stands between an opening
angle bracket and `closing`. -/
def bracketedName? (closing : List Char) : List Char → Option String
  | '<' :: text =>
      let name := text.takeWhile isNameChar
      if name ≠ [] ∧ closing.isPrefixOf (text.dropWhile isNameChar) then
        some (String.ofList name)
      else
        none
  | _ => none

/-- The function whose code a line opens. -/
def header? (line : List Char) : Option String :=
  match line.takeWhile (!Text.isBlank ·), line.dropWhile (!Text.isBlank ·) with
  | _ :: _, ' ' :: text => bracketedName? ['>', ':'] text
  | _, _ => none

/-- The leftmost name in angle brackets. -/
def leftmostName? : List Char → Option String
  | [] => none
  | c :: text => (bracketedName? ['>'] (c :: text)).or (leftmostName? text)

/-- The function that a line mentions.  A header mentions none. -/
def mention? (line : List Char) : Option String :=
  if (header? line).isSome then none else leftmostName? line

/-- The functions of `symbols` whose code is in the listing. -/
def functions (symbols : NameSet) (listing : Listing) : NameSet :=
  .ofList ((listing.filterMap header?).filter (· ∈ symbols))

/-- All names that the lines of the listing mention. -/
def mentions (listing : Listing) : NameSet :=
  .ofList (listing.filterMap mention?)

theorem mem_functions {symbols : NameSet} {listing : Listing} {name : String} :
    name ∈ listing.functions symbols ↔
      name ∈ symbols ∧ ∃ line ∈ listing, header? line = some name := by
  simp [functions, and_comm]

theorem mem_mentions {listing : Listing} {name : String} :
    name ∈ listing.mentions ↔ ∃ line ∈ listing, mention? line = some name := by
  simp [mentions]

example : header? "40a<b>: <main>: <x>".toList = some "main" := by decide

example : mention? "8: call <f+0x4> <<g> <h>".toList = some "g" := by decide

end Listing
end Deadwood
