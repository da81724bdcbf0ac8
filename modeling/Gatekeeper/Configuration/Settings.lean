import Gatekeeper.Fault

/-!
# Settings

Two properties configure the library: whether objects are validated when they are restored, and a
pattern of further classes to accept.
-/

namespace Gatekeeper.Configuration

abbrev Properties := List (Text × Value)

def validateProperty : Text := "validate-serializable-objects".toList

def patternProperty : Text := "serializable-object-filter".toList

structure Settings where
  validates : Bool
  pattern : Option Text
  deriving DecidableEq

namespace Settings

def standard : Settings := ⟨false, none⟩

/-- The pattern that a property holds: trimmed, and none if it is blank. -/
def patternOf : Value → Except Fault (Option Text)
  | .null => .ok none
  | .text t => .ok (if Text.isBlank t then none else some (Text.trim t))
  | _ => .error .settingNotText

def ofProperties (properties : Properties) : Except Fault Settings :=
  match patternOf ((properties.lookup patternProperty).getD .null) with
  | .error fault => .error fault
  | .ok pattern =>
    .ok ⟨((properties.lookup validateProperty).getD .null).isEnabled, pattern⟩

def setValidates (s : Settings) (v : Value) : Settings := ⟨v.isTruthy, s.pattern⟩

def activePattern (s : Settings) : Option Text := if s.validates then s.pattern else none

/-- The settings at first and after each assignment to the validation property. -/
def history (s : Settings) : List Value → List Settings
  | [] => [s]
  | v :: rest => s :: history (s.setValidates v) rest

end Settings
end Gatekeeper.Configuration
