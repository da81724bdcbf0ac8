import Gatekeeper.Guard.State

/-!
# Setting the screen of a process

A screen is applied by the streams that ask for it, or by a hook that the process calls for every
stream. A hook cannot be taken away again; it looks up the guard's screen whenever it is called. The
backing says which of the two ways is used, and the richer one that the process has is preferred.
-/

namespace Gatekeeper.Guard

open Screening (Screen)

/-- A guard with the number of hooks that were registered, of callbacks that were called, and of
enforcements of either kind that were brought to their end. -/
structure Process where
  state : State := {}
  hooks : Nat := 0
  callbacks : Nat := 0
  completed : Nat := 0

/-- What is done, besides setting the screen, to have it applied everywhere; it may fail. A
registration that fails may have registered its hook by then. -/
inductive Enforcement
  | callback (succeeds : Bool)
  | hook
  | failingHook (registered : Bool)
  deriving DecidableEq

inductive Backing
  | streams
  | hook
  | failingHook (registered : Bool)
  deriving DecidableEq

def Backing.enforcement? : Backing → Option Enforcement
  | .streams => none
  | .hook => some .hook
  | .failingHook registered => some (.failingHook registered)

structure Probes where
  hooks : Bool
  streams : Bool
  deriving DecidableEq

namespace Probes

def supported (p : Probes) : Bool := p.hooks || p.streams

/-- The richest backing that is there. -/
def backing (p : Probes) : Except Fault Backing :=
  if p.hooks then .ok .hook
  else if p.streams then .ok .streams
  else .error .unsupported

end Probes

/-- A process after an operation, what the operation reported, and how it ended. -/
structure Attempt (α : Type) where
  process : Process
  reported : Reported α

namespace Process

def withState (state : State) (p : Process) : Process := { p with state }

def enforce (p : Process) : Enforcement → Attempt Unit
  | .callback true =>
    ⟨{ p with callbacks := p.callbacks + 1, completed := p.completed + 1 }, .success ()⟩
  | .callback false => ⟨{ p with callbacks := p.callbacks + 1 }, .failure .enforcementFailed⟩
  | .hook =>
    ⟨{ p with hooks := p.hooks + 1, completed := p.completed + 1 }, ([.hookInstalled], .ok ())⟩
  | .failingHook registered =>
    ⟨{ p with hooks := p.hooks + registered.toNat }, .failure .enforcementFailed⟩

/-- Sets the screen unless one is set, with an enforcement if one is given and none is in force. A
failing enforcement leaves the guard as it was. -/
def install (p : Process) (enforcement : Option Enforcement) (screen : Screen) : Attempt Unit :=
  match p.state.screen with
  | some _ => ⟨p, .failure .alreadySet⟩
  | none =>
    match enforcement with
    | none => ⟨p.withState (p.state.withScreen screen false), .success ()⟩
    | some enforcement =>
      if p.state.enforced then ⟨p.withState (p.state.withScreen screen true), .success ()⟩
      else
        match p.enforce enforcement with
        | ⟨p, (notices, .error fault)⟩ => ⟨p, (notices, .error fault)⟩
        | ⟨p, (notices, .ok ())⟩ =>
          ⟨p.withState (p.state.withScreen screen true), (notices, .ok ())⟩

def install? (p : Process) (enforcement : Option Enforcement) : Option Screen → Attempt Unit
  | none => ⟨p, .failure (.required .installedFilter)⟩
  | some screen => p.install enforcement screen

/-- What the hooks of a process say about a class, one after the other. -/
def inspectByHooks (p : Process) (name : Text) : Nat → Reported Unit
  | 0 => .success ()
  | count + 1 => (inspect p.state.screen name).andThen fun _ => p.inspectByHooks name count

/-- The event that hooks are called with when a stream asks for a class. -/
def findClassEvent : Text := "pickle.find_class".toList

/-- What a single hook does on an event. Without a screen it lets everything pass. -/
def hookOn (p : Process) (event : Text) (arguments : List Value) : Reported Unit :=
  if event ≠ findClassEvent then .success ()
  else
    match p.state.screen, arguments with
    | none, _ => .success ()
    | some screen, [module, name] => inspect (some screen) (module.display ++ '.' :: name.display)
    | some _, _ => .failure .hookArguments

def callHooks (p : Process) (event : Text) (arguments : List Value) : Nat → Reported Unit
  | 0 => .success ()
  | count + 1 => (p.hookOn event arguments).andThen fun _ => p.callHooks event arguments count

/-- How an attempt to configure the guard records its end. -/
structure Configured where
  process : Process
  reported : Reported Bool
  /-- The outcome to record; none where the earlier one stays. -/
  outcome : Option Phase

/-- Ends an attempt. A guard that was set before, and a process without a backing, end it without a
fault; any other fault is passed on, and the attempt is abandoned. An exit goes by and abandons
nothing. -/
def settle (a : Attempt Unit) : Configured :=
  match a with
  | ⟨p, (notices, .ok ())⟩ => ⟨p, (notices ++ [.guardConfigured], .ok true), some .set⟩
  | ⟨p, (notices, .error .alreadySet)⟩ =>
    ⟨p, (notices ++ [.guardAlreadyConfigured], .ok false), some .alreadySet⟩
  | ⟨p, (notices, .error .unsupported)⟩ =>
    ⟨p.withState (p.state.endAttempt .unsupported),
      (notices ++ [.guardUnavailable], .ok false), some .unsupported⟩
  | ⟨p, (notices, .error fault)⟩ =>
    ⟨if fault.isExit then p else p.withState (p.state.endAttempt .unset),
      (notices, .error fault), none⟩

/-- Makes a screen, if there is a backing, and sets it. -/
def attempt (p : Process) (backing : Except Fault Backing) (make : Reported Screen) :
    Attempt Unit :=
  match backing with
  | .error fault => ⟨p, .failure fault⟩
  | .ok backing =>
    match make with
    | (notices, .error fault) => ⟨p, (notices, .error fault)⟩
    | (notices, .ok screen) =>
      match p.install backing.enforcement? screen with
      | ⟨p, (more, result)⟩ => ⟨p, (notices ++ more, result)⟩

def configure (p : Process) (backing : Except Fault Backing) (make : Reported Screen) :
    Configured :=
  settle ((p.withState p.state.beginAttempt).attempt backing make)

end Process
end Gatekeeper.Guard
