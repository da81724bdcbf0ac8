import Gatekeeper.Session.Basic

/-!
# Requests to a session

A request is answered from the state that the requests before it left behind. A request that fails
names its fault and keeps what it had changed up to there.
-/

namespace Gatekeeper.Session

open Gatekeeper.Configuration (Properties Settings Variables)
open Guard (Attempt Backing Opening Phase Process Reader Reference)
open Screening (Blueprint Candidate Screen Verdict)

inductive Request
  | beginAttempt
  | endAttempt (phase : Text)
  | streamScreen
  | install (screen : Option Blueprint) (callback : Option Bool)
  | ask (candidates : List Candidate)
  | setProbes (hooks streams : Option Bool)
  | supports (access : Access)
  | backing (access : Access)
  | setScreen (access : Access) (screen : Option Blueprint)
  | screen (access : Access)
  | callHooks (event : Text) (arguments : List Value)
  | setVariable (scope : Scope) (name : Text) (value : Option Text)
  | openReader (id : Text) (opening : Opening)
  | readerScreen (access : Access) (id : Text)
  | setReaderScreen (access : Access) (id : Text) (screen : Option Blueprint)
  | find (id : Text) (reference : Reference)
  | load (id : Text)
  | loadOnce (opening : Opening) (screen : Option Blueprint)
  | makeStreamScreen (id : Text) (properties : Properties) (names : Option (List Text))
      (access : Access)
  | attach (id reader : Text)
  | askStreamScreen (id : Text) (candidates : List Candidate)
  | configure (order : Order) (id : Option Text) (now : Bool)
  | reconfigure (id : Text)
  | settingsWanted (scope : Scope)
  | configureFrom (properties : Properties) (wanted : Option Bool) (access : Access)
      (scope : Scope)

inductive Answer
  | nothing
  | passed
  | flag (b : Bool)
  | backing (b : Backing)
  | screen (s : Option Screen)
  | streamScreen (s : Option Screen)
  | names (names : List Text)
  | verdicts (verdicts : List Verdict)
  /-- An arrangement with how its attempt ended, if there was one, and the variables it sees. -/
  | arranged (a : Arrangement) (attempted : Option (Except Fault Bool)) (bindings : Variables)

/-- A session after a request, with what was reported and the answer. -/
abbrev Answered := Session × Reported Answer

def reply (s : Session) (a : Answer) : Answered := (s, .success a)

def refuse (s : Session) (fault : Fault) : Answered := (s, .failure fault)

/-- Goes on with what was obtained; a fault is the answer. -/
def given {α : Type} (s : Session) (obtained : Except Fault α) (next : α → Answered) : Answered :=
  match obtained with
  | .ok a => next a
  | .error fault => s.refuse fault

/-- What is kept under a name has to be there. -/
def known {α : Type} : Option α → Except Fault α
  | some a => .ok a
  | none => .error .unknownName

def withReader (s : Session) (id : Text) (r : Reader) : Session :=
  { s with readers := s.readers.put id r }

/-- The session after an attempt on its process. -/
def performed (s : Session) (a : Attempt Unit) : Answered :=
  ({ s with process := a.process }, a.reported.andThen fun _ => .success .nothing)

def asked (s : Session) (screen : Screen) (candidates : List Candidate) : Answered :=
  (s, (candidates.flatMap screen.notices, .ok (.verdicts (candidates.map screen.verdict))))

/-- Arranges a configuration and attempts it at once, unless it is to wait. -/
def configured (s : Session) (host : Host) (a : Arrangement) (id : Option Text) (now : Bool) :
    Answered :=
  let keep (s : Session) (a : Arrangement) : Session :=
    match id with
    | some id => { s with arrangements := s.arrangements.put id a }
    | none => s
  if now then
    let (after, a, notices, result) := s.attempt host a
    (keep after a, (notices, .ok (.arranged a (some result) (after.variablesOf a.scope))))
  else (keep s a).reply (.arranged a none (s.variablesOf a.scope))

def handle (host : Host) (s : Session) : Request → Answered
  | .beginAttempt =>
    { s with process := s.process.withState s.process.state.beginAttempt }.reply .nothing
  | .endAttempt phase =>
    s.given (known (Phase.ofName? phase)) fun phase =>
      { s with process := s.process.withState (s.process.state.endAttempt phase) }.reply
        .nothing
  | .streamScreen => s.reply (.screen s.process.state.streamScreen)
  | .install screen callback =>
    s.given (Blueprint.build? screen) fun screen =>
      s.performed (s.process.install? (callback.map .callback) screen)
  | .ask candidates =>
    match s.process.state.screen with
    | none => s.reply .nothing
    | some screen => s.asked screen candidates
  | .setProbes hooks streams =>
    { s with probes := ⟨hooks.getD s.probes.hooks, streams.getD s.probes.streams⟩ }.reply .nothing
  | .supports access => s.reply (.flag (s.probesOf host access).supported)
  | .backing access => s.given (s.backing host access) fun backing => s.reply (.backing backing)
  | .setScreen access screen =>
    s.given (s.backing host access) fun backing =>
      s.given (Blueprint.build? screen) fun screen =>
        s.performed (s.process.install? backing.enforcement? screen)
  | .screen access =>
    s.given (s.backing host access) fun _ => s.reply (.screen s.process.state.screen)
  | .callHooks event arguments =>
    (s, (s.process.callHooks event arguments s.process.hooks).andThen fun _ => .success .passed)
  | .setVariable scope name value =>
    (s.setVariables ((s.variablesOf scope).update name value) scope).reply .nothing
  | .openReader id opening =>
    let r := s.process.openReader opening
    (s.withReader id r).reply (.screen r.screen.screen?)
  | .readerScreen access id =>
    s.given (s.backing host access) fun _ =>
      s.given (known (s.readers.get? id)) fun r => s.reply (.screen r.screen.screen?)
  | .setReaderScreen access id screen =>
    s.given (s.backing host access) fun _ =>
      s.given (known (s.readers.get? id)) fun r =>
        s.given (Blueprint.build? screen) fun screen =>
          s.given (r.setScreen screen) fun r => (s.withReader id r).reply .nothing
  | .find id reference =>
    s.given (known (s.readers.get? id)) fun r =>
      (s, (r.find s.process host.catalog reference).andThen fun name => .success (.names [name]))
  | .load id =>
    s.given (known (s.readers.get? id)) fun r =>
      let loaded := r.load s.process host.catalog
      (s.withReader id (r.afterLoad loaded),
        loaded.reported.andThen fun names => .success (.names names))
  | .loadOnce opening screen =>
    s.given (if opening.plain then .ok none else Blueprint.build? screen) fun screen =>
      let loaded := (s.process.openReaderWith opening screen).load s.process host.catalog
      (s, loaded.reported.andThen fun names => .success (.names names))
  | .makeStreamScreen id properties names access =>
    s.given (Settings.ofProperties properties) fun settings =>
      match Configuration.streamScreen settings names (s.backing host access) with
      | (notices, .error fault) => (s, (notices, .error fault))
      | (notices, .ok screen) =>
        ({ s with streamScreens := s.streamScreens.put id screen },
          (notices, .ok (.streamScreen screen)))
  | .attach id reader =>
    s.given (known (s.streamScreens.get? id)) fun screen =>
      s.given (known (s.readers.get? reader)) fun r =>
        s.given (Configuration.attach screen r) fun (r, attached) =>
          (s.withReader reader r).reply (.flag attached)
  | .askStreamScreen id candidates =>
    s.given (known (s.streamScreens.get? id)) fun screen =>
      match screen with
      | none => s.refuse .streamScreenAbsent
      | some screen => s.asked screen candidates
  | .configure order id now =>
    s.given (s.arrange host order) fun a => s.configured host a id now
  | .reconfigure id =>
    s.given (known (s.arrangements.get? id)) fun a => s.configured host a (some id) true
  | .settingsWanted scope =>
    s.reply (.flag (Configuration.settingsWanted host.probes (s.variablesOf scope)))
  | .configureFrom properties wanted access scope =>
    let wanted := wanted.getD (Configuration.settingsWanted host.probes (s.variablesOf scope))
    let done := Configuration.attemptFrom properties wanted
      (s.circumstances host access true) (s.site scope)
    (s.withSite done.1 scope, done.2.andThen fun b => .success (.flag b))

/-- The answers to requests in order, each with the session that it left behind. -/
def run (host : Host) (s : Session) : List Request → List Answered
  | [] => []
  | r :: rest =>
    let done := s.handle host r
    done :: run host done.1 rest

end Gatekeeper.Session
