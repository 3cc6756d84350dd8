import Deadwood.Detection

namespace Deadwood

/-!
# Sessions

A session is a sequence of steps in one workspace.  Before each step the user may
edit the workspace; then one command is run in it.  What a command leaves in the
cache and in the report is there for the next step.  Logs and worker numbers start
anew with each command.
-/

inductive Command where
  | survey (functions : NameSet) (limits : Pool.Limits) (used : NameSet)
      (units : List CompilationUnit)
  | gather (files : List String)
  | detect (limits : Pool.Limits) (arguments : List String)

inductive Outcome where
  | surveyed (survey : Survey)
  | gathered (gathered : Gathered)
  | detected (detection : Detection)

structure Step where
  edits : List Edit
  command : Command

namespace Workspace

/-- Run one command.  A survey leaves the workspace alone. -/
def run (workspace : Workspace) : Command → Outcome × Workspace
  | .survey functions limits used units =>
      (.surveyed (Deadwood.survey functions limits used units), workspace)
  | .gather files =>
      let gathered := Deadwood.gather workspace.sources files workspace.cache
      (.gathered gathered, { workspace with cache := gathered.cache })
  | .detect limits arguments =>
      let detection := Deadwood.detect limits arguments workspace
      (.detected detection,
        { workspace with cache := detection.cache, report := detection.report })

def step (workspace : Workspace) (step : Step) : Outcome × Workspace :=
  (step.edits.foldl edit workspace).run step.command

/-- The outcome of every step, with the workspace that it leaves behind. -/
def session (workspace : Workspace) : List Step → List (Outcome × Workspace)
  | [] => []
  | first :: steps =>
      let done := workspace.step first
      done :: done.2.session steps

end Workspace
end Deadwood
