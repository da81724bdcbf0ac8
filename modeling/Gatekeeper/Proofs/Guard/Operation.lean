import Gatekeeper.Configuration.Basic

/-!
# Operations on a process

An attempt is begun or ended, a screen is set with or without an enforcement, or a configuration
makes a whole attempt. An operation either sets the screen, and says so, or keeps what was there
(`Sets`, `Keeps`). Main statement: `Operation.lawful_perform`, for every process whose phase and
screen agree (`State.Orderly`).
-/

namespace Gatekeeper.Guard

open Contributor (Supply)
open Screening (Screen)
open Gatekeeper.Configuration (Circumstances Plan Settings Variables)

variable {p q : Process} {e : Option Enforcement} {offer : Option Screen} {phase : Phase}

namespace Enforcement

def succeeds : Enforcement → Bool
  | .callback succeeds => succeeds
  | .hook => true
  | .failingHook _ => false

/-- The hooks that it registers, whether or not it fails behind that. -/
def hooks : Enforcement → Nat
  | .callback _ => 0
  | .hook => 1
  | .failingHook registered => registered.toNat

def callbacks : Enforcement → Nat
  | .callback _ => 1
  | .hook | .failingHook _ => 0

end Enforcement

/-- What a screen is made from. -/
inductive Origin
  | settings (s : Settings) (supply : Supply)
  | givenPattern (pattern : Option Text)

namespace Origin

def plan : Origin → Plan
  | .settings s supply => .settings s supply
  | .givenPattern pattern => .givenPattern pattern

def make (k : Circumstances) : Origin → Reported Screen
  | .settings s supply =>
    Configuration.screenBeyond (Configuration.validating s k.backing).activePattern
      (supply.contributors k.contributors)
  | .givenPattern pattern => Configuration.screenOfVariable pattern

end Origin

inductive Operation
  | beginAttempt
  | endAttempt (unsupported : Bool)
  | install (callback : Option Bool) (screen : Option Screen)
  | setScreen (backing : Backing) (screen : Option Screen)
  | configure (origin : Origin) (outcome : Phase) (k : Circumstances) (bindings : Variables)

/-- A process after an operation, and whether the operation claims to have set the screen. -/
structure Outcome where
  process : Process
  succeeded : Bool

namespace Outcome

def ofAttempt (a : Attempt Unit) : Outcome where
  process := a.process
  succeeded := match a.reported.2 with
    | .ok _ => true
    | .error _ => false

def ofReported (process : Process) (reported : Reported Bool) : Outcome where
  process := process
  succeeded := match reported.2 with
    | .ok changed => changed
    | .error _ => false

end Outcome

namespace Operation

def perform (p : Process) : Operation → Outcome
  | .beginAttempt => ⟨p.withState p.state.beginAttempt, false⟩
  | .endAttempt unsupported =>
    ⟨p.withState (p.state.endAttempt (if unsupported then .unsupported else .unset)), false⟩
  | .install callback screen => .ofAttempt (p.install? (callback.map .callback) screen)
  | .setScreen backing screen => .ofAttempt (p.install? backing.enforcement? screen)
  | .configure origin outcome k bindings =>
    let done := (⟨origin.plan, outcome⟩ : Configuration).attempt k ⟨p, bindings⟩
    .ofReported done.site.process done.reported

def enforcement? : Operation → Option Enforcement
  | .install callback _ => callback.map .callback
  | .setScreen backing _ => backing.enforcement?
  | .configure _ _ k _ => k.backing.toOption.bind Backing.enforcement?
  | _ => none

def offer? : Operation → Option Screen
  | .install _ screen => screen
  | .setScreen _ screen => screen
  | .configure origin _ k _ => (origin.make k).2.toOption
  | _ => none

end Operation

/-! ## Orderly states -/

/-- The phase tells whether there is a screen, and nothing is enforced without one. -/
structure State.Orderly (s : State) : Prop where
  set_iff : s.phase = .set ↔ s.screen.isSome = true
  ne_alreadySet : s.phase ≠ .alreadySet
  vacant : s.screen = none → s.enforced = false

namespace State.Orderly

variable {s : State}

theorem initial : State.Orderly {} := ⟨by simp, by simp, fun _ => rfl⟩

theorem withPhase (h : s.Orderly) (hnow : s.phase ≠ .set) (hset : phase ≠ .set)
    (hne : phase ≠ .alreadySet) : State.Orderly ⟨phase, s.screen, s.enforced⟩ := by
  have hscreen : ¬ s.screen.isSome = true := fun hs => hnow (h.set_iff.2 hs)
  exact ⟨iff_of_false hset hscreen, hne, h.vacant⟩

theorem beginAttempt (h : s.Orderly) : s.beginAttempt.Orderly := by
  cases hphase : s.phase with
  | unset =>
    simp only [State.beginAttempt, hphase]
    exact h.withPhase (by simp [hphase]) (by simp) (by simp)
  | unsupported =>
    simp only [State.beginAttempt, hphase]
    exact h.withPhase (by simp [hphase]) (by simp) (by simp)
  | configuring => simpa only [State.beginAttempt, hphase] using h
  | set => simpa only [State.beginAttempt, hphase] using h
  | alreadySet => exact absurd hphase h.ne_alreadySet

theorem endAttempt (h : s.Orderly) (hphase : phase = .unset ∨ phase = .unsupported) :
    (s.endAttempt phase).Orderly := by
  by_cases hnow : s.phase = .configuring
  · simp only [State.endAttempt, hnow]
    rcases hphase with rfl | rfl
    · exact h.withPhase (by simp [hnow]) (by simp) (by simp)
    · exact h.withPhase (by simp [hnow]) (by simp) (by simp)
  · have hsame : s.endAttempt phase = s := by
      unfold State.endAttempt
      split
      · next hc => exact absurd hc hnow
      · rfl
    rwa [hsame]

end State.Orderly

/-! ## Setting and keeping the screen -/

/-- From `p` to `q` the offered screen is set on a process without one, and the enforcement that
goes with it is brought to its end. -/
structure Sets (e : Option Enforcement) (offer : Option Screen) (p q : Process) : Prop where
  vacant : p.state.screen = none
  carried : ∀ f ∈ e, f.succeeds = true
  state : ∃ screen ∈ offer, q.state = ⟨.set, some screen, e.isSome⟩
  hooks : q.hooks = p.hooks + (e.map Enforcement.hooks).getD 0
  completed : q.completed = p.completed + if e.isSome then 1 else 0

/-- From `p` to `q` what is screened stays as it was. Only an enforcement that fails may have been
started, and none behind a screen. -/
structure Keeps (p q : Process) : Prop where
  orderly : q.state.Orderly
  screen : q.state.screen = p.state.screen
  enforced : q.state.enforced = p.state.enforced
  hooks : p.hooks ≤ q.hooks
  held : p.state.screen.isSome = true → q.hooks = p.hooks
  completed : q.completed = p.completed

def Outcome.Lawful (e : Option Enforcement) (offer : Option Screen) (p : Process)
    (o : Outcome) : Prop :=
  if o.succeeded then Sets e offer p o.process else Keeps p o.process

/-! ## What each operation does -/

theorem Sets.orderly (h : Sets e offer p q) : q.state.Orderly := by
  obtain ⟨screen, _, hstate⟩ := h.state
  rw [hstate]
  exact ⟨by simp, by simp, by simp⟩

namespace Keeps

theorem refl (hp : p.state.Orderly) : Keeps p p :=
  ⟨hp, rfl, rfl, Nat.le_refl _, fun _ => rfl, rfl⟩

theorem beginAttempt (hp : p.state.Orderly) : Keeps p (p.withState p.state.beginAttempt) :=
  ⟨hp.beginAttempt, State.screen_beginAttempt _, State.enforced_beginAttempt _, Nat.le_refl _,
    fun _ => rfl, rfl⟩

theorem endAttempt (h : Keeps p q) (hphase : phase = .unset ∨ phase = .unsupported) :
    Keeps p (q.withState (q.state.endAttempt phase)) where
  orderly := h.orderly.endAttempt hphase
  screen := (State.screen_endAttempt _ _).trans h.screen
  enforced := (State.enforced_endAttempt _ _).trans h.enforced
  hooks := h.hooks
  held := h.held
  completed := h.completed

end Keeps

namespace Outcome.Lawful

variable {o : Outcome}

theorem of_sets (hsucceeded : o.succeeded = true) (h : Sets e offer p o.process) :
    o.Lawful e offer p := by
  rwa [Outcome.Lawful, if_pos hsucceeded]

theorem of_keeps (hfailed : o.succeeded = false) (h : Keeps p o.process) :
    o.Lawful e offer p := by
  simpa [Outcome.Lawful, hfailed] using h

theorem of_beginAttempt (h : o.Lawful e offer (p.withState p.state.beginAttempt)) :
    o.Lawful e offer p := by
  by_cases hsucceeded : o.succeeded = true
  · rw [Outcome.Lawful, if_pos hsucceeded] at h
    exact of_sets hsucceeded
      ⟨(State.screen_beginAttempt _).symm.trans h.vacant, h.carried, h.state, h.hooks, h.completed⟩
  · rw [Outcome.Lawful, if_neg hsucceeded] at h
    refine of_keeps (by simpa using hsucceeded)
      ⟨h.orderly, h.screen.trans (State.screen_beginAttempt _),
        h.enforced.trans (State.enforced_beginAttempt _), h.hooks, fun hs => h.held ?_, h.completed⟩
    exact (congrArg Option.isSome (State.screen_beginAttempt _)).trans hs

end Outcome.Lawful

namespace Process

theorem enforce_of_succeeds {f : Enforcement} (h : f.succeeds = true) (p : Process) :
    ∃ notices, p.enforce f =
      ⟨⟨p.state, p.hooks + f.hooks, p.callbacks + f.callbacks, p.completed + 1⟩,
        (notices, .ok ())⟩ := by
  cases f with
  | callback succeeds =>
    obtain rfl : succeeds = true := h
    exact ⟨[], rfl⟩
  | hook => exact ⟨[.hookInstalled], rfl⟩
  | failingHook registered => exact absurd h Bool.false_ne_true

theorem enforce_of_fails {f : Enforcement} (h : ¬ f.succeeds = true) (p : Process) :
    p.enforce f =
      ⟨⟨p.state, p.hooks + f.hooks, p.callbacks + f.callbacks, p.completed⟩,
        .failure .enforcementFailed⟩ := by
  cases f with
  | callback succeeds =>
    obtain rfl : succeeds = false := Bool.eq_false_iff.2 h
    rfl
  | hook => exact absurd rfl h
  | failingHook registered => rfl

theorem lawful_install (hp : p.state.Orderly) (e : Option Enforcement) (screen : Screen) :
    (Outcome.ofAttempt (p.install e screen)).Lawful e (some screen) p := by
  cases hscreen : p.state.screen with
  | some held =>
    have hinstall : p.install e screen = ⟨p, .failure .alreadySet⟩ := by
      simp only [install, hscreen]
    rw [hinstall]
    exact .of_keeps rfl (.refl hp)
  | none =>
    have hfree : p.state.enforced = false := hp.vacant hscreen
    cases e with
    | none =>
      have hinstall : p.install none screen =
          ⟨p.withState (p.state.withScreen screen false), .success ()⟩ := by
        simp only [install, hscreen]
      rw [hinstall]
      refine .of_sets rfl ⟨hscreen, by simp, ⟨screen, rfl, ?_⟩, rfl, rfl⟩
      simp [Outcome.ofAttempt, withState, State.withScreen, hfree]
    | some f =>
      by_cases hf : f.succeeds = true
      · obtain ⟨notices, henforce⟩ := enforce_of_succeeds hf p
        have hinstall : p.install (some f) screen =
            ⟨⟨p.state.withScreen screen true, p.hooks + f.hooks, p.callbacks + f.callbacks,
              p.completed + 1⟩, (notices, .ok ())⟩ := by
          simp [install, hscreen, hfree, henforce, withState]
        rw [hinstall]
        refine .of_sets rfl ⟨hscreen, by simpa using hf, ⟨screen, rfl, ?_⟩, rfl, rfl⟩
        simp [Outcome.ofAttempt, State.withScreen]
      · have hinstall : p.install (some f) screen =
            ⟨⟨p.state, p.hooks + f.hooks, p.callbacks + f.callbacks, p.completed⟩,
              .failure .enforcementFailed⟩ := by
          simp [install, hscreen, hfree, enforce_of_fails hf p, Reported.failure]
        rw [hinstall]
        exact .of_keeps rfl
          ⟨hp, rfl, rfl, Nat.le_add_right _ _, by simp [hscreen], rfl⟩

theorem lawful_install? (hp : p.state.Orderly) (e : Option Enforcement)
    (offer : Option Screen) : (Outcome.ofAttempt (p.install? e offer)).Lawful e offer p := by
  cases offer with
  | none => exact .of_keeps rfl (.refl hp)
  | some screen => exact lawful_install hp e screen

/-- An attempt that ends without a screen only records how it ended. -/
theorem lawful_settle {a : Attempt Unit} (h : (Outcome.ofAttempt a).Lawful e offer p) :
    (Outcome.ofReported (settle a).process (settle a).reported).Lawful e offer p := by
  obtain ⟨q, notices, fault | _⟩ := a
  · have hq : Keeps p q := by simpa [Outcome.Lawful, Outcome.ofAttempt] using h
    unfold settle
    split
    · next heq => simp at heq
    · next heq =>
      obtain ⟨rfl, rfl, rfl⟩ : q = _ ∧ notices = _ ∧ fault = _ := by simpa using heq
      exact .of_keeps rfl hq
    · next heq =>
      obtain ⟨rfl, rfl, rfl⟩ : q = _ ∧ notices = _ ∧ fault = _ := by simpa using heq
      exact .of_keeps rfl (hq.endAttempt (Or.inr rfl))
    · next heq =>
      obtain ⟨rfl, rfl, rfl⟩ : q = _ ∧ notices = _ ∧ fault = _ := by simpa using heq
      refine .of_keeps rfl ?_
      cases hexit : Fault.isExit _ with
      | true => simpa [Outcome.ofReported, hexit] using hq
      | false => simpa [Outcome.ofReported, hexit] using hq.endAttempt (Or.inl rfl)
  · have hq : Sets e offer p q := by simpa [Outcome.Lawful, Outcome.ofAttempt] using h
    exact .of_sets rfl hq

theorem lawful_attempt (hp : p.state.Orderly) (backing : Except Fault Backing)
    (make : Reported Screen) :
    (Outcome.ofAttempt (p.attempt backing make)).Lawful
      (backing.toOption.bind Backing.enforcement?) make.2.toOption p := by
  cases backing with
  | error fault => exact .of_keeps rfl (.refl hp)
  | ok backing =>
    obtain ⟨notices, fault | screen⟩ := make
    · exact .of_keeps rfl (.refl hp)
    · exact lawful_install hp backing.enforcement? screen

theorem lawful_configure (hp : p.state.Orderly) (backing : Except Fault Backing)
    (make : Reported Screen) :
    (Outcome.ofReported (p.configure backing make).process
      (p.configure backing make).reported).Lawful
        (backing.toOption.bind Backing.enforcement?) make.2.toOption p := by
  have hbegun := lawful_attempt (p := p.withState p.state.beginAttempt) hp.beginAttempt backing make
  exact lawful_settle hbegun.of_beginAttempt

end Process

/-- Every operation on an orderly process either sets the screen or keeps what was there, and says
which. -/
theorem Operation.lawful_perform (hp : p.state.Orderly) (o : Operation) :
    (o.perform p).Lawful o.enforcement? o.offer? p := by
  cases o with
  | beginAttempt => exact .of_keeps rfl (.beginAttempt hp)
  | endAttempt unsupported =>
    refine .of_keeps rfl ((Keeps.refl hp).endAttempt ?_)
    cases unsupported with
    | false => exact Or.inl rfl
    | true => exact Or.inr rfl
  | install callback screen => exact Process.lawful_install? hp _ screen
  | setScreen backing screen => exact Process.lawful_install? hp _ screen
  | configure origin outcome k bindings =>
    cases origin with
    | settings s supply => exact Process.lawful_configure hp k.backing _
    | givenPattern pattern => exact Process.lawful_configure hp k.backing _

namespace Operation

variable {o : Operation}

theorem sets_of_succeeded (hp : p.state.Orderly) (hsucceeded : (o.perform p).succeeded = true) :
    Sets o.enforcement? o.offer? p (o.perform p).process := by
  have hlawful := o.lawful_perform hp
  rwa [Outcome.Lawful, if_pos hsucceeded] at hlawful

theorem keeps_of_failed (hp : p.state.Orderly) (hfailed : ¬ (o.perform p).succeeded = true) :
    Keeps p (o.perform p).process := by
  have hlawful := o.lawful_perform hp
  rwa [Outcome.Lawful, if_neg hfailed] at hlawful

end Operation

end Gatekeeper.Guard
