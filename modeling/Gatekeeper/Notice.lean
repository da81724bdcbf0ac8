import Gatekeeper.Fault

/-!
# Notices

What the library reports while it works, as data: each notice has a level, the channel it is
reported on and a message. Operations return the notices they made, oldest first.
-/

namespace Gatekeeper

inductive Level
  | debug
  | info
  | error
  | critical
  deriving DecidableEq

inductive Notice
  | argumentRedacted (option : Text)
  | classRejected (element : Option Text)
  | hookInstalled
  | namesSanctioned (contributor : Text) (count : Nat)
  | streamScreenCreated (pattern : Text)
  | environmentPatternUsed (source : Text)
  | guardConfigured
  | guardAlreadyConfigured
  | guardUnavailable
  | propertyConfigured (name pattern : Text)
  | propertyAlreadyConfigured (name : Text)
  deriving DecidableEq

def Level.name : Level → Text
  | .debug => "DEBUG".toList
  | .info => "INFO".toList
  | .error => "ERROR".toList
  | .critical => "CRITICAL".toList

namespace Notice

def level : Notice → Level
  | .argumentRedacted _ | .hookInstalled | .streamScreenCreated _ => .debug
  | .classRejected _ => .critical
  | .guardUnavailable => .error
  | _ => .info

def channel : Notice → Text
  | .argumentRedacted _ => "pyguard.redaction.strategy".toList
  | .classRejected _ => "pyguard.filter.proxy".toList
  | .hookInstalled => "pyguard.filter.api".toList
  | .namesSanctioned _ _ => "pyguard.filter.sanctioned".toList
  | .streamScreenCreated _ => "pyguard.filter.stream".toList
  | _ => "pyguard.filter.config".toList

def message : Notice → Text
  | .argumentRedacted option => "Redacting argument of option ".toList ++ option
  | .classRejected element =>
      "Serialization filter is rejecting class ".toList ++ (Value.ofText? element).display
  | .hookInstalled => "Installed pickle.find_class audit hook".toList
  | .namesSanctioned contributor count =>
      contributor ++ " sanctioned ".toList ++ Text.ofNat count ++ " classes".toList
  | .streamScreenCreated pattern => "Created stream serial filter with pattern ".toList ++ pattern
  | .environmentPatternUsed source =>
      "Using serial filter pattern from ".toList ++ source ++ ['.']
  | .guardConfigured => "Global serial filter is now configured.".toList
  | .guardAlreadyConfigured => "Global serial filter is already configured.".toList
  | .guardUnavailable =>
      "Unable to configure a global serial filter: ".toList ++ (Fault.unsupported.message).getD []
  | .propertyConfigured name pattern =>
      "System property ".toList ++ name ++ " is now configured with '".toList ++ pattern ++
        "'.".toList
  | .propertyAlreadyConfigured name =>
      "System property ".toList ++ name ++ " is already configured.".toList

end Notice

/-- An outcome together with what was reported on the way to it. -/
abbrev Reported (α : Type) := List Notice × Except Fault α

namespace Reported

def success {α : Type} (a : α) : Reported α := ([], .ok a)

def failure {α : Type} (fault : Fault) : Reported α := ([], .error fault)

def ofResult {α : Type} (result : Except Fault α) : Reported α := ([], result)

/-- Goes on with a success; a fault ends the work. -/
def andThen {α β : Type} (r : Reported α) (next : α → Reported β) : Reported β :=
  match r with
  | (notices, .error fault) => (notices, .error fault)
  | (notices, .ok a) => (notices ++ (next a).1, (next a).2)

variable {α β : Type}

@[simp] theorem success_andThen (a : α) (next : α → Reported β) :
    (success a).andThen next = next a := by
  simp [success, andThen]

@[simp] theorem failure_andThen (fault : Fault) (next : α → Reported β) :
    (failure fault : Reported α).andThen next = failure fault := rfl

@[simp] theorem andThen_success (r : Reported α) : r.andThen success = r := by
  obtain ⟨notices, fault | a⟩ := r <;> simp [andThen, success]

theorem andThen_assoc {γ : Type} (r : Reported α) (next : α → Reported β)
    (last : β → Reported γ) :
    (r.andThen next).andThen last = r.andThen fun a => (next a).andThen last := by
  obtain ⟨notices, fault | a⟩ := r
  · rfl
  · rcases hnext : next a with ⟨more, fault | b⟩ <;> simp [andThen, hnext]

theorem andThen_eq_ok_iff {r : Reported α} {next : α → Reported β} {b : β} :
    (r.andThen next).2 = .ok b ↔ ∃ a, r.2 = .ok a ∧ (next a).2 = .ok b := by
  obtain ⟨notices, fault | a⟩ := r <;> simp [andThen]

theorem andThen_eq_error_iff {r : Reported α} {next : α → Reported β} {fault : Fault} :
    (r.andThen next).2 = .error fault ↔
      r.2 = .error fault ∨ ∃ a, r.2 = .ok a ∧ (next a).2 = .error fault := by
  obtain ⟨notices, _ | a⟩ := r <;> simp [andThen]

theorem andThen_of_ok {r : Reported α} {next : α → Reported β} {a : α} (h : r.2 = .ok a) :
    (r.andThen next).2 = (next a).2 := by
  obtain ⟨notices, result⟩ := r
  obtain rfl : result = .ok a := h
  rfl

theorem andThen_of_error {r : Reported α} {next : α → Reported β} {fault : Fault}
    (h : r.2 = .error fault) : (r.andThen next).2 = .error fault :=
  andThen_eq_error_iff.2 (Or.inl h)

end Reported
end Gatekeeper
