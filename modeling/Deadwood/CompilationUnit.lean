import Deadwood.Text

namespace Deadwood

/-!
# Compilation units

A compilation unit is one parsed source file: its syntax nodes in preorder, each
with the name it declares or refers to and the tokens it spans.  A node mentions
a function when the function's name is one of its tokens and is not the node's
own name.  The heuristic is deliberately coarse, since it never asks what the
token means there.

Reading tokens can fail, for a whole node or at a single token.  A failure
anywhere in a unit loses all of its mentions, so the mentions of a unit are an
optional set.  The node that stands for the file is never read.
-/

/-- What a node stands for: the entire file, or a construct of the language under
its grammatical name. -/
inductive NodeKind where
  | file
  | construct (name : String)
deriving DecidableEq

structure Node where
  kind : NodeKind
  spelling : String
  /-- The spanned tokens, `none` in the place of an unreadable one.  The whole
  list is `none` if the node cannot be read at all. -/
  tokens : Option (List (Option String))
deriving DecidableEq

/-- A parsed file, with how its worker will behave.  The last three fields are
not derived from the syntax nodes. -/
structure CompilationUnit where
  /-- The version of the source file. -/
  id : Option String := none
  nodes : List Node := []
  /-- How often a worker on this unit is found alive; negative for never. -/
  polls : Int := 0
  /-- The exit code of a worker that finishes this unit. -/
  exitCode : Int := 0
  /-- Whether the unit can be written to a file. -/
  savable : Bool := true
deriving DecidableEq

namespace Node

/-- The readable tokens of a node, or `none` if one of them is unreadable. -/
def readTokens? (node : Node) : Option (List String) :=
  node.tokens.bind fun tokens => tokens.mapM id

/-- The functions that a node mentions, in the order of its tokens. -/
def mentions? (functions : NameSet) (node : Node) : Option (List String) :=
  match node.kind with
  | .file => some []
  | .construct _ =>
      node.readTokens?.map fun tokens =>
        (tokens.map fun token => String.ofList (Text.trim token.toList)).filter fun name =>
          name ≠ node.spelling ∧ name ∈ functions

end Node

namespace CompilationUnit

/-- The functions that a unit mentions, or `none` if it has an unreadable token
outside the node of the file. -/
def mentions? (functions : NameSet) (unit : CompilationUnit) : Option NameSet :=
  (unit.nodes.mapM (Node.mentions? functions)).map fun found => NameSet.ofList found.flatten

example : mentions? (NameSet.ofList ["f", "g"])
    { nodes := [⟨.file, "a.c", none⟩,
        ⟨.construct "CALL_EXPR", "f", some [some "f", some " g\t", some "h"]⟩] } =
    some (NameSet.ofList ["g"]) := by decide +kernel

end CompilationUnit
end Deadwood
