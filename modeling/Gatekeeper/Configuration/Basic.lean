import Gatekeeper.Configuration.Settings
import Gatekeeper.Contributor.Basic
import Gatekeeper.Guard.Process
import Gatekeeper.Screening.AcceptPattern
import Gatekeeper.Table

/-!
# Configurations

A configuration gives the process its screen, or publishes a pattern in a variable; either is done
once. It can be attempted any number of times and keeps how its last attempts ended. What an attempt
has to ask for is in its circumstances, which may differ from one attempt to the next.
-/

namespace Gatekeeper

open Contributor (Supply)
open Guard (Backing Phase Process)
open Screening (AcceptPattern NameSet Screen)

namespace Configuration

abbrev Variables := Table Text

/-- The variable with the pattern that the process is to be screened by. -/
def patternVariable : Text := "PYGUARD_SERIAL_FILTER".toList

/-- The variable that switches the screen of the settings on. -/
def enablingVariable : Text := "PYGUARD_ENABLE_GLOBAL_SERIAL_FILTER".toList

/-- The variable in which the pattern of the management channel is published. -/
def managementVariable : Text := "PYGUARD_MANAGEMENT_SERIAL_FILTER".toList

def variableNames : List Text := [patternVariable, enablingVariable, managementVariable]

/-- What is to be brought about. A screen by settings goes with the supply of contributors that
sanction names. -/
inductive Plan
  | nothing
  | settings (s : Settings) (supply : Supply)
  | givenPattern (pattern : Option Text)
  | publication (name : Text) (pattern : Text)

/-- What the attempts of a configuration have in common: the process and its variables. -/
structure Site where
  process : Process := {}
  bindings : Variables := .empty

/-- What an attempt finds out when it asks: the backing, and what a discovery of contributors comes
to. -/
structure Circumstances where
  backing : Except Fault Backing
  contributors : Except Fault (List Contributor)
  permitted : Bool := true

end Configuration

structure Configuration where
  plan : Configuration.Plan
  outcome : Phase := .unset

namespace Configuration

/-- A site and a configuration after an attempt, with what was reported and whether the attempt
changed anything. -/
structure Attempted where
  site : Site
  configuration : Configuration
  reported : Reported Bool

/-- The screen of an accepting pattern with a clause of one's own, beyond the names that the
contributors sanction. -/
def screenBeyond (clause : Option Text) (contributors : Except Fault (List Contributor)) :
    Reported Screen :=
  (Reported.ofResult contributors).andThen fun contributors =>
    (Contributor.merge contributors).andThen fun names =>
      .ofResult (Screen.ofPatternBeyond names (AcceptPattern.ofClauses [clause]))

/-- The screen of a pattern as it was given, without sanctioned names. -/
def screenOfVariable (pattern : Option Text) : Reported Screen :=
  ([.environmentPatternUsed patternVariable],
    match pattern with
    | none => .error (.required .pattern)
    | some pattern => Screen.ofPatternBeyond .empty pattern)

/-- Settings validate from their first attempt on that has a backing. -/
def validating (s : Settings) (backing : Except Fault Backing) : Settings :=
  match backing with
  | .ok _ => ⟨true, s.pattern⟩
  | .error _ => s

/-- Contributors are asked as soon as there is a backing, whatever becomes of the attempt then. -/
def supplyBehind (supply : Supply) (backing : Except Fault Backing) : Supply :=
  match backing with
  | .ok _ => supply.merged
  | .error _ => supply

/-- An attempt to set the screen of the process. -/
def screenProcess (plan : Plan) (outcome : Phase) (k : Circumstances) (site : Site)
    (make : Reported Screen) : Attempted :=
  let done := site.process.configure k.backing make
  ⟨⟨done.process, site.bindings⟩, ⟨plan, done.outcome.getD outcome⟩, done.reported⟩

/-- An attempt to publish a pattern. A variable that holds more than blanks is left alone. -/
def publish (name pattern : Text) (outcome : Phase) (permitted : Bool) (site : Site) : Attempted :=
  let plan := Plan.publication name pattern
  if !permitted then ⟨site, ⟨plan, outcome⟩, .success false⟩
  else if Text.isBlank? (site.bindings.get? name) then
    ⟨⟨site.process, site.bindings.put name pattern⟩, ⟨plan, .set⟩,
      ([.propertyConfigured name pattern], .ok true)⟩
  else ⟨site, ⟨plan, .alreadySet⟩, ([.propertyAlreadyConfigured name], .ok false)⟩

def attempt (c : Configuration) (k : Circumstances) (site : Site) : Attempted :=
  match c.plan with
  | .nothing => ⟨site, c, .success false⟩
  | .settings s supply =>
    let s := validating s k.backing
    screenProcess (.settings s (supplyBehind supply k.backing)) c.outcome k site
      (screenBeyond s.activePattern (supply.contributors k.contributors))
  | .givenPattern pattern =>
    screenProcess c.plan c.outcome k site (screenOfVariable pattern)
  | .publication name pattern => publish name pattern c.outcome k.permitted site

end Configuration
end Gatekeeper
