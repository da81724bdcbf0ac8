import Gatekeeper.Proofs.Guard.Operation

/-!
# How an attempt ends

An attempt is begun, finds out what it needs, and is finished in one go. Main statement: it is
finished in one of six ways, each of which says what it does to the process (`ends_finish`).
-/

namespace Gatekeeper

/-- Faults that an attempt does not take for an answer about the guard. -/
def Fault.Ordinary (fault : Fault) : Prop := fault ≠ .alreadySet ∧ fault ≠ .unsupported

namespace Guard

open Screening (Screen)

variable {p : Process}

/-- The enforcement that goes with the backing, if there is one, comes to its end. -/
def Backing.Enforces (b : Backing) : Prop := ∀ f ∈ b.enforcement?, f.succeeds = true

namespace Backing

theorem enforces_streams : Backing.streams.Enforces := by simp [Enforces, enforcement?]

theorem enforces_hook : Backing.hook.Enforces := by
  simp [Enforces, enforcement?, Enforcement.succeeds]

theorem not_enforces_failingHook (registered : Bool) : ¬ (failingHook registered).Enforces :=
  fun h => Bool.false_ne_true (h _ rfl)

end Backing

/-- What an attempt finds out between its beginning and its end. -/
structure Contender where
  backing : Except Fault Backing
  made : Reported Screen
  unsupported_of_error : ∀ fault, backing = .error fault → fault = .unsupported
  ordinary_of_error : ∀ fault, made.2 = .error fault → fault.Ordinary

namespace Contender

/-- The screen that is to be set, unless the attempt ends before that. -/
def offer? (c : Contender) : Option Screen := c.backing.toOption.bind fun _ => c.made.2.toOption

end Contender

namespace Process

def begun (p : Process) : Process := p.withState p.state.beginAttempt

/-- A process whose screen was set with a backing. -/
def screened (p : Process) (backing : Backing) (screen : Screen) : Process where
  state := ⟨.set, some screen, backing.enforcement?.isSome⟩
  hooks := p.hooks + (backing.enforcement?.map Enforcement.hooks).getD 0
  callbacks := p.callbacks
  completed := p.completed + if backing.enforcement?.isSome then 1 else 0

/-- A process behind a registration that failed. -/
def unenforced (p : Process) (registered : Bool) : Process where
  state := p.state.endAttempt .unset
  hooks := p.hooks + registered.toNat
  callbacks := p.callbacks
  completed := p.completed

def finish (p : Process) (c : Contender) : Configured := settle (p.attempt c.backing c.made)

/-- An attempt that nothing comes between is begun and finished at once. -/
theorem configure_eq_finish (p : Process) (c : Contender) :
    p.configure c.backing c.made = p.begun.finish c := rfl

end Process

theorem Process.orderly_screened (p : Process) (backing : Backing) (screen : Screen) :
    (p.screened backing screen).state.Orderly :=
  ⟨by simp [screened], by simp [screened], by simp [screened]⟩

variable {c : Contender}

/-- The ways in which an attempt is finished. -/
inductive Ends (c : Contender) (p : Process) : Process.Configured → Prop
  | unsupported (notices : List Notice) (hbacking : c.backing = .error .unsupported) :
      Ends c p ⟨p.withState (p.state.endAttempt .unsupported), (notices, .ok false),
        some .unsupported⟩
  | failed (notices : List Notice) {backing : Backing} {fault : Fault}
      (hbacking : c.backing = .ok backing) (hmade : c.made.2 = .error fault)
      (hfailure : fault.isExit = false) :
      Ends c p ⟨p.withState (p.state.endAttempt .unset), (notices, .error fault), none⟩
  | exited (notices : List Notice) {backing : Backing} {fault : Fault}
      (hbacking : c.backing = .ok backing) (hmade : c.made.2 = .error fault)
      (hexit : fault.isExit = true) :
      Ends c p ⟨p, (notices, .error fault), none⟩
  | alreadySet (notices : List Notice) {backing : Backing} {screen : Screen}
      (hbacking : c.backing = .ok backing) (hmade : c.made.2 = .ok screen)
      (hheld : p.state.screen.isSome = true) :
      Ends c p ⟨p, (notices, .ok false), some .alreadySet⟩
  | unenforced (notices : List Notice) {registered : Bool} {screen : Screen}
      (hbacking : c.backing = .ok (.failingHook registered)) (hmade : c.made.2 = .ok screen)
      (hvacant : p.state.screen = none) :
      Ends c p ⟨p.unenforced registered, (notices, .error .enforcementFailed), none⟩
  | set (notices : List Notice) {backing : Backing} {screen : Screen}
      (hbacking : c.backing = .ok backing) (hmade : c.made.2 = .ok screen)
      (henforces : backing.Enforces) (hvacant : p.state.screen = none) :
      Ends c p ⟨p.screened backing screen, (notices, .ok true), some .set⟩

theorem Process.settle_of_ordinary {fault : Fault} (h : fault.Ordinary) (p : Process)
    (notices : List Notice) :
    settle ⟨p, (notices, .error fault)⟩ =
      ⟨if fault.isExit then p else p.withState (p.state.endAttempt .unset),
        (notices, .error fault), none⟩ := by
  cases fault <;> first | rfl | exact absurd rfl h.1 | exact absurd rfl h.2

theorem Process.finish_of_error (h : c.backing = .error .unsupported) (p : Process) :
    p.finish c = ⟨p.withState (p.state.endAttempt .unsupported),
      ([.guardUnavailable], .ok false), some .unsupported⟩ := by
  simp only [finish, attempt, h]
  rfl

theorem Process.finish_of_made_error {backing : Backing} {fault : Fault}
    (hbacking : c.backing = .ok backing) (hmade : c.made.2 = .error fault) (p : Process) :
    p.finish c =
      ⟨if fault.isExit then p else p.withState (p.state.endAttempt .unset),
        (c.made.1, .error fault), none⟩ := by
  have hfault := c.ordinary_of_error fault hmade
  simp only [finish, attempt, hbacking]
  generalize c.made = made at hmade ⊢
  obtain ⟨notices, result⟩ := made
  obtain rfl : result = .error fault := hmade
  exact settle_of_ordinary hfault p notices

theorem Process.finish_of_made {backing : Backing} {screen : Screen}
    (hbacking : c.backing = .ok backing) (hmade : c.made.2 = .ok screen) (p : Process) :
    p.finish c = settle ⟨(p.install backing.enforcement? screen).process,
      (c.made.1 ++ (p.install backing.enforcement? screen).reported.1,
        (p.install backing.enforcement? screen).reported.2)⟩ := by
  simp only [finish, attempt, hbacking]
  generalize c.made = made at hmade ⊢
  obtain ⟨notices, result⟩ := made
  obtain rfl : result = .ok screen := hmade
  rfl

theorem ends_finish (hp : p.state.Orderly) (c : Contender) : Ends c p (p.finish c) := by
  cases hbacking : c.backing with
  | error fault =>
    obtain rfl := c.unsupported_of_error fault hbacking
    rw [Process.finish_of_error hbacking]
    exact .unsupported _ hbacking
  | ok backing =>
    cases hmade : c.made.2 with
    | error fault =>
      rw [Process.finish_of_made_error hbacking hmade]
      cases hexit : fault.isExit with
      | true => exact .exited _ hbacking hmade hexit
      | false => exact .failed _ hbacking hmade hexit
    | ok screen =>
      rw [Process.finish_of_made hbacking hmade]
      cases hscreen : p.state.screen with
      | some held =>
        simp only [Process.install, hscreen]
        exact .alreadySet _ hbacking hmade (by simp [hscreen])
      | none =>
        have hfree : p.state.enforced = false := hp.vacant hscreen
        cases backing with
        | streams =>
          have hset := Ends.set (c.made.1 ++ [.guardConfigured]) hbacking hmade
            Backing.enforces_streams hscreen
          simpa [Process.install, hscreen, hfree, Process.settle, Backing.enforcement?,
            Reported.success, Process.withState, State.withScreen, Process.screened] using hset
        | hook =>
          have hset := Ends.set (c.made.1 ++ [.hookInstalled] ++ [.guardConfigured]) hbacking
            hmade Backing.enforces_hook hscreen
          simpa [Process.install, hscreen, hfree, Process.settle, Backing.enforcement?,
            Process.enforce, Process.withState, State.withScreen, Enforcement.hooks,
            Process.screened] using hset
        | failingHook registered =>
          have hend := Ends.unenforced c.made.1 hbacking hmade hscreen
          simpa [Process.install, hscreen, hfree, Process.settle, Backing.enforcement?,
            Process.enforce, Process.withState, Reported.failure, Process.unenforced,
            Fault.isExit] using hend

end Guard
end Gatekeeper
