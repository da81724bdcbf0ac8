import Gatekeeper.Configuration.Choice
import Gatekeeper.Configuration.StreamScreen
import Gatekeeper.Contributor.Discovery

/-!
# Sessions

A session works on one process. It opens readers, makes screens for streams and arranges
configurations, and keeps each of them under a name. Variables are the session's own or those that
the process shares with everything else that runs in it.
-/

namespace Gatekeeper

open Gatekeeper.Configuration (Attempted Properties Settings Variables)
open Contributor (Family Supply)
open Guard (Backing Catalog Process Probes Reader)
open Screening (PatternSource Screen)

/-- What the process of a session finds around it. -/
structure Host where
  hooks : Bool
  contributors : Except Fault (List Contributor)
  catalog : Catalog

/-- What a process offers unless a session says otherwise. Streams can always be screened. -/
def Host.probes (h : Host) : Probes := ⟨h.hooks, true⟩

namespace Session

inductive Scope
  | own
  | shared
  deriving DecidableEq

inductive Access
  | probed
  | standard
  | direct (backing : Backing)
  deriving DecidableEq

/-- A configuration that a session keeps, with what its attempts are answered from. -/
structure Arrangement where
  configuration : Configuration
  access : Access := .probed
  permitted : Bool := true
  scope : Scope := .own

inductive Choice
  | settings (properties : Properties)
  | givenPattern (pattern : Option Text)
  | byVariables (properties : Properties) (wanted : Option Bool)
  | publication (name : Text) (pattern : PatternSource)

/-- Where no contributors are named, those that the host discovers are meant. -/
structure Order where
  choice : Choice
  contributors : Option (List Family) := none
  /-- The contributors can be gone through one time only. -/
  passing : Bool := false
  access : Access := .probed
  permitted : Bool := true
  scope : Scope := .own

end Session

structure Session where
  process : Process := {}
  probes : Probes
  own : Variables
  shared : Variables
  readers : Table Reader := .empty
  streamScreens : Table (Option Screen) := .empty
  arrangements : Table Session.Arrangement := .empty

namespace Session

def variablesOf (s : Session) : Scope → Variables
  | .own => s.own
  | .shared => s.shared

def setVariables (s : Session) (bindings : Variables) : Scope → Session
  | .own => { s with own := bindings }
  | .shared => { s with shared := bindings }

def probesOf (s : Session) (host : Host) : Access → Probes
  | .standard => host.probes
  | _ => s.probes

def backing (s : Session) (host : Host) : Access → Except Fault Backing
  | .direct backing => .ok backing
  | access => (s.probesOf host access).backing

def Order.supply (o : Order) : Except Fault Supply :=
  match o.contributors with
  | none => .ok .discovered
  | some families =>
    (Contributor.construct families).map fun contributors =>
      if o.passing then .passing contributors else .listed contributors

/-- The configuration that an order stands for, going by the variables of its scope. -/
def configurationOf (s : Session) (host : Host) (o : Order) : Except Fault Configuration :=
  match o.choice with
  | .settings properties => do
    let settings ← Settings.ofProperties properties
    let supply ← o.supply
    return ⟨.settings settings supply, .unset⟩
  | .givenPattern pattern => .ok ⟨.givenPattern pattern, .unset⟩
  | .byVariables properties wanted => do
    let bindings := s.variablesOf o.scope
    let wanted := wanted.getD (Configuration.settingsWanted host.probes bindings)
    let settings ← Settings.ofProperties properties
    let supply ← o.supply
    return Configuration.choose wanted settings supply bindings
  | .publication name pattern => .ok ⟨.publication name pattern.text, .unset⟩

def arrange (s : Session) (host : Host) (o : Order) : Except Fault Arrangement :=
  (s.configurationOf host o).map fun configuration =>
    ⟨configuration, o.access, o.permitted, o.scope⟩

/-- What an attempt finds out when it asks now. -/
def circumstances (s : Session) (host : Host) (access : Access) (permitted : Bool) :
    Configuration.Circumstances where
  backing := s.backing host access
  contributors := host.contributors
  permitted := permitted

def site (s : Session) (scope : Scope) : Configuration.Site := ⟨s.process, s.variablesOf scope⟩

def withSite (s : Session) (site : Configuration.Site) (scope : Scope) : Session :=
  { s with process := site.process }.setVariables site.bindings scope

def attempt (s : Session) (host : Host) (a : Arrangement) :
    Session × Arrangement × Reported Bool :=
  let done := a.configuration.attempt (s.circumstances host a.access a.permitted) (s.site a.scope)
  (s.withSite done.site a.scope, { a with configuration := done.configuration }, done.reported)

end Session
end Gatekeeper
