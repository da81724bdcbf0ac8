import Gatekeeper.Command.Basic
import Gatekeeper.Configuration.Basic
import Gatekeeper.Redaction.Redactor
import Gatekeeper.Text.Lines

/-!
# Running commands

A command prints its result and ends with a status: zero, or one for a rejected class, a fault of
the pattern or of a contributor, and the overview.
-/

namespace Gatekeeper.Command

open Gatekeeper.Configuration (screenBeyond)
open Redaction (Redactor)
open Screening (AcceptPattern Candidate Screen managementPattern)

structure Output where
  status : Nat
  printed : Text := []
  complaint : Text := []
  deriving DecidableEq

def asLines (texts : List Text) : Text := texts.flatMap (· ++ ['\n'])

def overviewText : Text :=
  asLines
    ["Usage: pyguard <command> [options]".toList,
     "Commands: redact, pattern, check".toList,
     "Use 'pyguard <command> --help' for more information".toList]

/-- The texts to redact: those on the command line as one, else each line of the input. -/
def toRedact (texts : List Text) (input : Text) : List Text :=
  if texts.isEmpty then Text.linesBy Text.isLineFeed (Text.normalizeNewlines input)
  else [Text.joined [' '] texts]

def isTold : Fault → Bool
  | .malformedClause _ | .unreadableContributor _ _ | .unloadableEntry _ _ => true
  | _ => false

def complaintOf (fault : Fault) : Text :=
  "Error: ".toList ++ fault.message.getD [] ++ ['\n']

def verdictOutput (screen : Screen) (name : Text) : Output :=
  let verdict := screen.verdict (.ofName name)
  ⟨if verdict = .rejected then 1 else 0, asLines [verdict.name], []⟩

def checkClass (name : Text) (clause : Option Text)
    (contributors : Except Fault (List Contributor)) : Reported Output :=
  match screenBeyond clause contributors with
  | (notices, .ok screen) =>
    (notices ++ screen.notices (.ofName name), .ok (verdictOutput screen name))
  | (notices, .error fault) =>
    (notices, if isTold fault then .ok ⟨1, [], complaintOf fault⟩ else .error fault)

def clauseOf : Option Setting → Except Fault (Option Text)
  | none => .ok none
  | some (.text t) => .ok (some t)
  | some .noText => .error .clauseNotText

/-- The management pattern, or the accepting pattern with an extra clause. -/
def patternText (extra : Option Setting) (management : Bool) : Except Fault Text :=
  if management then .ok managementPattern
  else (clauseOf extra).map fun clause => AcceptPattern.ofClauses [clause]

def run (contributors : Except Fault (List Contributor)) (input : Text) :
    Command → Reported Output
  | .overview => .success ⟨1, [], overviewText⟩
  | .redact texts =>
    let r : Redactor := {}
    let lines := toRedact texts input
    (lines.flatMap r.notices, .ok ⟨0, asLines (lines.map r.redact), []⟩)
  | .pattern extra management =>
    .ofResult ((patternText extra management).map fun pattern => ⟨0, asLines [pattern], []⟩)
  | .check name clause =>
    (Reported.ofResult (clauseOf clause)).andThen fun clause => checkClass name clause contributors

end Gatekeeper.Command
