import Gatekeeper.Proofs.Guard.Operation
import Gatekeeper.Session.Request

/-!
# Requests as operations

Whatever a request does to the process of its session is one operation, or nothing. Where requests
bring no callback of their own, a screen is enforced by hooks only (`ByHooks`). Main statement: such
a request sets the screen of the process or keeps it (`advances_handle`).
-/

namespace Gatekeeper

open Guard (Attempt Backing Enforcement Keeps Operation Phase Process Sets State)
open Screening (Blueprint Screen)

namespace Guard

/-- An enforcement that comes to its end has registered one hook. -/
def Enforcement.ByHook (f : Enforcement) : Prop := f.succeeds = true → f.hooks = 1

/-- A step of a process that is enforced by hooks, if it is enforced at all. -/
def Process.Advances (p q : Process) : Prop :=
  (∃ e offer, (∀ f ∈ e, Enforcement.ByHook f) ∧ Sets e offer p q) ∨ Keeps p q

end Guard

namespace Guard.Operation

def ByHooks (o : Operation) : Prop := ∀ f ∈ o.enforcement?, f.ByHook

theorem byHook_of_mem_enforcement? {backing : Backing} {f : Enforcement}
    (h : f ∈ backing.enforcement?) : f.ByHook := by
  cases backing with
  | streams => simp [Backing.enforcement?] at h
  | hook =>
    obtain rfl : Enforcement.hook = f := Option.some.inj h
    exact fun _ => rfl
  | failingHook registered =>
    obtain rfl : Enforcement.failingHook registered = f := Option.some.inj h
    exact fun hsucceeds => absurd hsucceeds Bool.false_ne_true

theorem byHooks_setScreen (backing : Backing) (screen : Option Screen) :
    (setScreen backing screen).ByHooks := fun _ hf => byHook_of_mem_enforcement? hf

theorem byHooks_configure (origin : Origin) (outcome : Phase) (k : Configuration.Circumstances)
    (bindings : Configuration.Variables) : (configure origin outcome k bindings).ByHooks := by
  intro f hf
  obtain ⟨backing, _, hbacking⟩ := Option.bind_eq_some_iff.1 hf
  exact byHook_of_mem_enforcement? hbacking

theorem advances_perform {p : Process} (hp : p.state.Orderly) {o : Operation} (ho : o.ByHooks) :
    p.Advances (o.perform p).process := by
  by_cases hsucceeded : (o.perform p).succeeded = true
  · exact Or.inl ⟨o.enforcement?, o.offer?, ho, sets_of_succeeded hp hsucceeded⟩
  · exact Or.inr (keeps_of_failed hp hsucceeded)

end Guard.Operation

namespace Guard.Process.Advances

variable {p q : Process}

theorem refl (hp : p.state.Orderly) : p.Advances p := Or.inr (Keeps.refl hp)

theorem orderly (h : p.Advances q) : q.state.Orderly := by
  obtain ⟨e, offer, _, hsets⟩ | hkeeps := h
  · exact hsets.orderly
  · exact hkeeps.orderly

end Guard.Process.Advances

theorem Configuration.advances_attempt {p : Process} (hp : p.state.Orderly) (c : Configuration)
    (k : Configuration.Circumstances) (bindings : Configuration.Variables) :
    p.Advances (c.attempt k ⟨p, bindings⟩).site.process := by
  obtain ⟨plan, outcome⟩ := c
  cases plan with
  | nothing => exact .refl hp
  | settings s supply =>
    exact Guard.Operation.advances_perform hp
      (Guard.Operation.byHooks_configure (.settings s supply) outcome k bindings)
  | givenPattern pattern =>
    exact Guard.Operation.advances_perform hp
      (Guard.Operation.byHooks_configure (.givenPattern pattern) outcome k bindings)
  | publication name pattern =>
    have hsame : (publish name pattern outcome k.permitted ⟨p, bindings⟩).site.process = p := by
      unfold publish
      split
      · rfl
      · split <;> rfl
    change p.Advances (publish name pattern outcome k.permitted ⟨p, bindings⟩).site.process
    rw [hsame]
    exact .refl hp

namespace Session

variable {host : Host} {s : Session}

/-- A request that brings no callback of its own, and ends an attempt as configurations do. -/
def Request.ByBacking : Request → Prop
  | .install _ callback => callback = none
  | .endAttempt phase => phase = Phase.unset.name ∨ phase = Phase.unsupported.name
  | _ => True

def Answered.Advances (s : Session) (a : Answered) : Prop := s.process.Advances a.1.process

namespace Answered.Advances

variable {a : Answered}

theorem of_eq (hs : s.process.state.Orderly) (h : a.1.process = s.process) :
    Answered.Advances s a := by
  rw [Answered.Advances, h]
  exact .refl hs

theorem given {α : Type} {obtained : Except Fault α} {next : α → Answered}
    (hs : s.process.state.Orderly)
    (h : ∀ x, obtained = .ok x → Answered.Advances s (next x)) :
    Answered.Advances s (s.given obtained next) := by
  cases obtained with
  | error fault => exact of_eq hs rfl
  | ok x => exact h x rfl

end Answered.Advances

theorem process_setVariables (s : Session) (bindings : Configuration.Variables) (scope : Scope) :
    (s.setVariables bindings scope).process = s.process := by
  cases scope <;> rfl

theorem advances_withSite (hs : s.process.state.Orderly) (c : Configuration)
    (k : Configuration.Circumstances) (scope : Scope) :
    s.process.Advances (s.withSite (c.attempt k (s.site scope)).site scope).process := by
  have hattempt := Configuration.advances_attempt hs c k (s.variablesOf scope)
  rw [withSite, process_setVariables]
  exact hattempt

theorem advances_configured (hs : s.process.state.Orderly) (a : Arrangement) (id : Option Text)
    (now : Bool) : Answered.Advances s (s.configured host a id now) := by
  have hattempt := advances_withSite hs a.configuration
    (s.circumstances host a.access a.permitted) a.scope
  cases now with
  | false => cases id <;> exact .of_eq hs rfl
  | true => cases id <;> exact hattempt

theorem advances_attemptFrom (hs : s.process.state.Orderly)
    (properties : Configuration.Properties) (wanted : Bool) (k : Configuration.Circumstances)
    (scope : Scope) :
    s.process.Advances (s.withSite
      (Configuration.attemptFrom properties wanted k (s.site scope)).1 scope).process := by
  cases hsettings : Configuration.Settings.ofProperties properties with
  | error fault =>
    rw [Configuration.attemptFrom, hsettings, withSite, process_setVariables]
    exact .refl hs
  | ok settings =>
    rw [Configuration.attemptFrom, hsettings]
    exact advances_withSite hs
      (Configuration.choose wanted settings .discovered (s.variablesOf scope)) k scope

theorem advances_performed (hs : s.process.state.Orderly) {o : Operation} (ho : o.ByHooks)
    {a : Attempt Unit} (ha : (o.perform s.process).process = a.process) :
    Answered.Advances s (s.performed a) := by
  have hperform := Guard.Operation.advances_perform hs ho
  rwa [ha] at hperform

theorem advances_endAttempt (hs : s.process.state.Orderly) {phase : Phase}
    (hphase : phase = .unset ∨ phase = .unsupported) :
    s.process.Advances (s.process.withState (s.process.state.endAttempt phase)) :=
  Or.inr ((Keeps.refl hs).endAttempt hphase)

theorem advances_handle (hs : s.process.state.Orderly) {q : Request} (hq : q.ByBacking) :
    Answered.Advances s (s.handle host q) := by
  cases q with
  | beginAttempt => exact Or.inr (Keeps.beginAttempt hs)
  | endAttempt name =>
    refine .given hs fun phase hphase => advances_endAttempt hs ?_
    rcases hq with rfl | rfl
    · obtain rfl : Phase.unset = phase := Except.ok.inj hphase
      exact Or.inl rfl
    · obtain rfl : Phase.unsupported = phase := Except.ok.inj hphase
      exact Or.inr rfl
  | install screen callback =>
    obtain rfl : callback = none := hq
    refine .given hs fun built _ => ?_
    have hhooks : (Operation.install none built).ByHooks := by
      simp [Operation.ByHooks, Operation.enforcement?]
    exact advances_performed hs hhooks rfl
  | setScreen access screen =>
    refine .given hs fun backing _ => .given hs fun built _ => ?_
    exact advances_performed hs (Guard.Operation.byHooks_setScreen backing built) rfl
  | configure order id now => exact .given hs fun a _ => advances_configured hs a id now
  | reconfigure id => exact .given hs fun a _ => advances_configured hs a (some id) true
  | configureFrom properties wanted access scope => exact advances_attemptFrom hs _ _ _ _
  | streamScreen => exact .of_eq hs rfl
  | ask candidates =>
    refine .of_eq hs ?_
    simp only [handle]
    split <;> rfl
  | setProbes hooks streams => exact .of_eq hs rfl
  | supports access => exact .of_eq hs rfl
  | backing access => exact .given hs fun _ _ => .of_eq hs rfl
  | screen access => exact .given hs fun _ _ => .of_eq hs rfl
  | callHooks event arguments => exact .of_eq hs rfl
  | setVariable scope name value => exact .of_eq hs (process_setVariables _ _ _)
  | openReader id opening => exact .of_eq hs rfl
  | readerScreen access id => exact .given hs fun _ _ => .given hs fun _ _ => .of_eq hs rfl
  | setReaderScreen access id screen =>
    exact .given hs fun _ _ => .given hs fun _ _ => .given hs fun _ _ => .given hs fun _ _ =>
      .of_eq hs rfl
  | find id reference => exact .given hs fun _ _ => .of_eq hs rfl
  | load id => exact .given hs fun _ _ => .of_eq hs rfl
  | loadOnce opening screen => exact .given hs fun _ _ => .of_eq hs rfl
  | makeStreamScreen id properties names access =>
    refine .given hs fun settings _ => .of_eq hs ?_
    split <;> rfl
  | attach id reader =>
    exact .given hs fun _ _ => .given hs fun _ _ => .given hs fun _ _ => .of_eq hs rfl
  | askStreamScreen id candidates =>
    refine .given hs fun screen _ => .of_eq hs ?_
    split <;> rfl
  | settingsWanted scope => exact .of_eq hs rfl

end Session
end Gatekeeper
