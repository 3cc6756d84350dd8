import Deadwood.Text

namespace Deadwood

/-!
# The log of a run

A run of the analysis leaves a log of everything it does to the outside world:
what it tells the user, which commands it gives, which files it parses, saves
and loads, and how it handles its workers.  Events are recorded in the order in
which they happen.  They carry no effect of their own.
-/

inductive Event where
  /-- One line for the user. -/
  | say (line : String)
  /-- A command run only for its exit status. -/
  | check (command : String)
  /-- A command run for what it prints. -/
  | read (command : String)
  | parse (file : String)
  | save (path : String)
  | load (path : String)
  | start (worker : Nat)
  /-- A worker was asked whether it is still alive. -/
  | poll (worker : Nat) (alive : Bool)
  | join (worker : Nat)
  /-- A result was taken from the head of the queue. -/
  | receive (names : NameSet)
  /-- A result was waited for while no worker could deliver one. -/
  | starve
  | sleep (seconds : Nat)
deriving DecidableEq

/-- Events in the order of their happening. -/
abbrev Log := List Event

namespace Log

/-- Tell the user a text.  Every line of it is an event of its own; only the line
feed divides lines here. -/
def announce (text : String) : Log :=
  (Text.pieces '\n' text.toList).map fun line => .say (String.ofList line)

/-- The share `finished / total` in percent, rounded down and set in three
columns. -/
def percentage (finished total : Nat) : String :=
  let digits := (100 * finished / total).repr
  String.ofList (List.replicate (3 - digits.length) ' ') ++ digits ++ "%"

/-- Announce step number `finished` out of `total`. -/
def progress (finished total : Nat) (activity : String) : Log :=
  announce ("[-] " ++ percentage finished total ++ " " ++ activity)

example : progress 1 3 "Parsing a.c" = [.say "[-]  33% Parsing a.c"] := by decide

end Log
end Deadwood
