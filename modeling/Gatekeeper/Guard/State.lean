import Gatekeeper.Screening.Screen

/-!
# The guard

The guard of a process holds the one screen that applies to the whole process. The screen is set
once and never replaced. The phase says how far the process got in configuring it.
-/

namespace Gatekeeper.Guard

open Screening (Screen Candidate Verdict)

/-- `alreadySet` is never a phase that the guard reaches by itself; it is how an attempt to
configure a guard ends that was set before. -/
inductive Phase
  | unset
  | configuring
  | set
  | alreadySet
  | unsupported
  deriving DecidableEq

namespace Phase

def name : Phase → Text
  | .unset => "UNSET".toList
  | .configuring => "CONFIGURING".toList
  | .set => "SET".toList
  | .alreadySet => "ALREADY_SET".toList
  | .unsupported => "UNSUPPORTED".toList

def ofName? (t : Text) : Option Phase :=
  [unset, configuring, set, alreadySet, unsupported].find? fun p => p.name = t

end Phase

/-- `enforced` is true once a hook applies the screen to every stream of the process. -/
structure State where
  phase : Phase := .unset
  screen : Option Screen := none
  enforced : Bool := false

namespace State

def beginAttempt (s : State) : State :=
  match s.phase with
  | .unset | .unsupported => ⟨.configuring, s.screen, s.enforced⟩
  | _ => s

def endAttempt (phase : Phase) (s : State) : State :=
  match s.phase with
  | .configuring => ⟨phase, s.screen, s.enforced⟩
  | _ => s

/-- The state with a screen set; what was enforced stays enforced. -/
def withScreen (screen : Screen) (enforced : Bool) (s : State) : State :=
  ⟨.set, some screen, s.enforced || enforced⟩

/-- The screen that a new stream starts with: none where a hook applies it already. -/
def streamScreen (s : State) : Option Screen := if s.enforced then none else s.screen

@[simp] theorem screen_beginAttempt (s : State) : s.beginAttempt.screen = s.screen := by
  unfold beginAttempt; split <;> rfl

@[simp] theorem enforced_beginAttempt (s : State) : s.beginAttempt.enforced = s.enforced := by
  unfold beginAttempt; split <;> rfl

@[simp] theorem screen_endAttempt (phase : Phase) (s : State) :
    (s.endAttempt phase).screen = s.screen := by
  unfold endAttempt; split <;> rfl

@[simp] theorem enforced_endAttempt (phase : Phase) (s : State) :
    (s.endAttempt phase).enforced = s.enforced := by
  unfold endAttempt; split <;> rfl

end State

/-- Asks a screen about a class by its name; a rejection is a fault. -/
def inspect (screen : Option Screen) (name : Text) : Reported Unit :=
  match screen with
  | none => .success ()
  | some screen =>
    (screen.notices (.ofName name),
      if screen.verdict (.ofName name) = .rejected then .error (.classRejected name) else .ok ())

end Gatekeeper.Guard
