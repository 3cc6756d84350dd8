import Std.Data.ExtTreeMap
import Deadwood.CompilationUnit

namespace Deadwood

/-!
# The cache of parsed files

Parsing is slow, so every parsed unit is saved in one directory and loaded from
there the next time.  An entry is named after the last part of the file's path
alone.  Files of the same name in different directories therefore share an entry,
and an entry is not renewed when its source changes.

The place of the cache may hold no directory at all, and the place of an entry
may hold something that is no saved unit.  What can be found and what can be
saved in these cases is settled here.

A saved unit is loaded whatever has become of its source.  A loader may also
compare the two and refuse a unit whose source was changed or removed since.  This
comparison is left out: an entry that is refused for it counts as corrupt from
then on.
-/

/-- What the cache directory holds under one name. -/
inductive Entry where
  | saved (unit : CompilationUnit)
  /-- A file that the loader refuses, such as one that is no saved unit. -/
  | corrupt
  | directory
deriving DecidableEq

/-- What stands in the place of the cache. -/
inductive Cache where
  | absent
  /-- A plain file, which holds no entries and is never removed. -/
  | plainFile
  | directory (entries : Std.ExtTreeMap String Entry)
deriving DecidableEq

namespace Cache

def location : String := ".cache"

/-- The part of a path after its last slash, which may be empty. -/
def basename (path : String) : String :=
  String.ofList (path.toList.reverse.takeWhile (· ≠ '/')).reverse

/-- The name of the entry for a source file. -/
def entryName (file : String) : String :=
  basename file ++ "_cache"

/-- The path of the entry for a source file. -/
def entryPath (file : String) : String :=
  location ++ "/" ++ entryName file

/-- No file can have a name of more bytes than this. -/
def longestName : Nat := 255

/-- Make the directory if nothing is in its place. -/
def prepare : Cache → Cache
  | .absent => .directory ∅
  | cache => cache

/-- Whatever exists under a name. -/
def lookup? (cache : Cache) (name : String) : Option Entry :=
  match cache with
  | .directory entries => if name.utf8ByteSize ≤ longestName then entries[name]? else none
  | _ => none

/-- Save a unit under a name, in place of a file that is there already.  It fails
for units that cannot be saved, names that are too long, and names of
directories. -/
def save? (cache : Cache) (name : String) (unit : CompilationUnit) : Option Cache :=
  match cache with
  | .directory entries =>
      if unit.savable ∧ name.utf8ByteSize ≤ longestName ∧ entries[name]? ≠ some .directory then
        some (.directory (entries.insert name (.saved unit)))
      else
        none
  | _ => none

theorem lookup?_prepare (cache : Cache) (name : String) :
    cache.prepare.lookup? name = cache.lookup? name := by
  cases cache <;> simp [prepare, lookup?]

theorem lookup?_of_save? {cache saved : Cache} {name : String} {unit : CompilationUnit}
    (success : cache.save? name unit = some saved) (other : String) :
    saved.lookup? other = if other = name then some (.saved unit) else cache.lookup? other := by
  cases cache with
  | absent => simp [save?] at success
  | plainFile => simp [save?] at success
  | directory entries =>
      simp only [save?] at success
      split at success
      · rename_i allowed
        cases success
        by_cases same : other = name
        · subst same
          simp [lookup?, allowed.2.1]
        · simp [lookup?, Std.ExtTreeMap.getElem?_insert, same, Ne.symm same]
      · simp at success

example : entryPath "src/a.c" = ".cache/a.c_cache" := by decide

example : entryName "src/" = "_cache" := by decide

end Cache
end Deadwood
