import Deadwood.Cache
import Deadwood.Event

namespace Deadwood

/-!
# Gathering compilation units

Gathering turns a list of source files into their compilation units, one for
each file and in the same order.  A unit comes from the cache if the entry of
its file can be loaded.  Otherwise the file is parsed and the unit saved, also
over an entry that failed to load.

The first file that can be neither loaded nor parsed and saved ends the
gathering.  The entries saved until then remain.
-/

/-- The source files that can be parsed, by their paths.  Paths are compared as
texts: two spellings of one path are two files. -/
abbrev Sources := Std.ExtTreeMap String CompilationUnit

/-- Why a file yields no unit. -/
inductive GatherFault where
  | unparsable
  | unsavable
deriving DecidableEq

/-- What came of one file: its unit, the cache afterwards, and the log. -/
structure Fetched where
  unit : Except GatherFault CompilationUnit
  cache : Cache
  log : Log

/-- What came of a list of files. -/
structure Gathered where
  units : Except GatherFault (List CompilationUnit)
  cache : Cache
  log : Log

namespace Cache

/-- Parse file number `position` out of `total` and save its unit. -/
def renew (sources : Sources) (position total : Nat) (file : String) (cache : Cache) : Fetched :=
  let parsing := Log.progress position total ("Parsing " ++ file) ++ [.parse file]
  match sources[file]? with
  | none => ⟨.error .unparsable, cache, parsing⟩
  | some unit =>
      let saving := parsing ++ [.save (entryPath file)]
      match cache.save? (entryName file) unit with
      | none => ⟨.error .unsavable, cache, saving⟩
      | some cache => ⟨.ok unit, cache, saving⟩

/-- Load the unit of a file, or parse the file if that is not possible. -/
def fetch (sources : Sources) (position total : Nat) (file : String) (cache : Cache) : Fetched :=
  match cache.lookup? (entryName file) with
  | none => cache.renew sources position total file
  | some (.saved unit) =>
      ⟨.ok unit, cache,
        .load (entryPath file) :: Log.announce ("[-] Loading cached AST for " ++ file)⟩
  | some _ =>
      let renewed := cache.renew sources position total file
      { renewed with log := .load (entryPath file) :: renewed.log }

/-- Fetch the units of files, of which the first is number `position`. -/
def fetchAll (sources : Sources) (total : Nat) : Nat → List String → Cache → Gathered
  | _, [], cache => ⟨.ok [], cache, []⟩
  | position, file :: files, cache =>
      let fetched := cache.fetch sources position total file
      match fetched.unit with
      | .error fault => ⟨.error fault, fetched.cache, fetched.log⟩
      | .ok unit =>
          let rest := fetchAll sources total (position + 1) files fetched.cache
          ⟨rest.units.map (unit :: ·), rest.cache, fetched.log ++ rest.log⟩

end Cache

/-- Obtain the units of all files.  The cache directory is made first, even if
there is no file. -/
def gather (sources : Sources) (files : List String) (cache : Cache) : Gathered :=
  cache.prepare.fetchAll sources files.length 1 files

end Deadwood
