import Gatekeeper.Proofs.Configuration.Fault
import Gatekeeper.Proofs.Guard.WriteOnce
import Mathlib.Logic.Function.Basic

/-!
# Attempts that fail

An attempt that sets no screen leaves what is screened as it was, and the phase says how it ended.
But a hook whose registration failed stays behind, and contributors that can be gone through only
once have been asked. The configuration itself keeps no more than that its settings validate. Main
statement: whatever attempts failed before, the one that sets the screen does so as if it had been
the first of its configuration as it is by then; the hooks that were left behind are there besides
its own (`traces_attempts`).
-/

namespace Gatekeeper.Guard

open Contributor (Supply)
open Gatekeeper.Configuration (Attempted Circumstances Variables)
open Screening (Screen)

variable {p : Process} {k : Circumstances}

/-- A configuration that screens its process. -/
structure Screener where
  origin : Origin
  outcome : Phase := .unset

/-- A call of one of several configurations, with what it finds out. -/
structure Call (n : Nat) where
  number : Fin n
  circumstances : Circumstances
  bindings : Variables := .empty

/-- Several screeners of one process. No two of them share contributors that pass by. -/
structure Trials (n : Nat) where
  run : Run := {}
  screeners : Fin n → Screener

def Origin.after (k : Circumstances) : Origin → Origin
  | .settings s supply =>
    .settings (Configuration.validating s k.backing) (Configuration.supplyBehind supply k.backing)
  | .givenPattern pattern => .givenPattern pattern

/-- The contributors, if any are asked, can be gone through again. -/
def Origin.Lasts : Origin → Prop
  | .settings _ supply => ∀ contributors, supply ≠ .passing contributors
  | .givenPattern _ => True

namespace Screener

variable {s : Screener} {bindings : Variables}

def configuration (s : Screener) : Configuration := ⟨s.origin.plan, s.outcome⟩

def attempt (s : Screener) (k : Circumstances) (p : Process) (bindings : Variables) : Attempted :=
  s.configuration.attempt k ⟨p, bindings⟩

def operation (s : Screener) (k : Circumstances) (bindings : Variables) : Operation :=
  .configure s.origin s.outcome k bindings

def after (k : Circumstances) (p : Process) (bindings : Variables) (s : Screener) : Screener :=
  ⟨s.origin.after k, (s.attempt k p bindings).configuration.outcome⟩

/-- An attempt leaves the configuration that the next one of the same screener starts from. -/
theorem configuration_after :
    (s.attempt k p bindings).configuration = (s.after k p bindings).configuration := by
  obtain ⟨origin, outcome⟩ := s
  cases origin <;> rfl

/-- The hooks that an attempt leaves behind: one, if it gets as far as a registration that fails
when its hook is registered. -/
def strayed (s : Screener) (k : Circumstances) (p : Process) : Nat :=
  match p.state.screen, k.backing, (s.origin.make k).2 with
  | none, .ok (.failingHook registered), .ok _ => registered.toNat
  | _, _, _ => 0

theorem strayed_eq_zero (h : k.backing ≠ .ok (.failingHook true)) : s.strayed k p = 0 := by
  unfold strayed
  split
  · next registered _ _ hbacking _ =>
    cases registered with
    | false => rfl
    | true => exact absurd hbacking h
  · rfl

/-- How a process comes out of an attempt that sets no screen. -/
structure Spares (s : Screener) (k : Circumstances) (p : Process) (bindings : Variables) :
    Prop where
  screen : (s.attempt k p bindings).site.process.state.screen = p.state.screen
  enforced : (s.attempt k p bindings).site.process.state.enforced = p.state.enforced
  completed : (s.attempt k p bindings).site.process.completed = p.completed
  callbacks : (s.attempt k p bindings).site.process.callbacks = p.callbacks
  hooks : (s.attempt k p bindings).site.process.hooks = p.hooks + s.strayed k p
  held : p.state.screen.isSome = true → (s.attempt k p bindings).site.process.state.phase = .set
  unsupported : p.state.screen = none → k.backing = .error .unsupported →
    (s.attempt k p bindings).reported.2 = .ok false ∧
      (s.attempt k p bindings).site.process.state.phase = .unsupported
  /-- An exit leaves the attempt open. -/
  raised : p.state.screen = none → k.backing ≠ .error .unsupported →
    ∃ fault, (s.attempt k p bindings).reported.2 = .error fault ∧
      (s.attempt k p bindings).site.process.state.phase =
        if fault.isExit then .configuring else .unset

end Screener

/-! ## One attempt -/

namespace State

variable {s : State} {o : Phase}

theorem phase_beginAttempt_of_vacant (h : s.Orderly) (hvacant : s.screen = none) :
    s.beginAttempt.phase = .configuring := by
  have hset : s.phase ≠ .set := by
    intro hs
    have hsome := h.set_iff.1 hs
    simp [hvacant] at hsome
  have hlost := h.ne_alreadySet
  unfold beginAttempt
  cases hphase : s.phase <;> simp_all

/-- An attempt that is given up leaves its phase behind, unless there is a screen. -/
theorem phase_endAttempt_beginAttempt (h : s.Orderly) (o : Phase) :
    (s.beginAttempt.endAttempt o).phase = if s.screen.isSome then .set else o := by
  cases hscreen : s.screen with
  | none => simp [endAttempt, phase_beginAttempt_of_vacant h hscreen]
  | some screen =>
    have hset : s.phase = .set := h.set_iff.2 (by simp [hscreen])
    simp [beginAttempt, endAttempt, hset]

end State

namespace Ends

variable {c : Contender} {done : Process.Configured}

theorem phase_of_held (h : Ends c p.begun done) (hp : p.state.Orderly)
    (hfailed : done.reported.2 ≠ .ok true) (hheld : p.state.screen.isSome = true) :
    done.process.state.phase = .set := by
  have hphase (o : Phase) : (p.begun.state.endAttempt o).phase = .set :=
    (State.phase_endAttempt_beginAttempt hp o).trans (if_pos hheld)
  have hbegun : p.begun.state.screen.isSome = true := by
    rw [← hheld]
    exact congrArg Option.isSome (State.screen_beginAttempt _)
  cases h with
  | unsupported => exact hphase .unsupported
  | failed => exact hphase .unset
  | exited => exact hp.beginAttempt.set_iff.2 hbegun
  | alreadySet => exact hp.beginAttempt.set_iff.2 hbegun
  | unenforced => exact hphase .unset
  | set => exact absurd rfl hfailed

theorem unsupported_of_lacking (h : Ends c p.begun done) (hp : p.state.Orderly)
    (hvacant : p.state.screen = none) (hlacking : c.backing = .error .unsupported) :
    done.reported.2 = .ok false ∧ done.process.state.phase = .unsupported := by
  cases h with
  | unsupported =>
    refine ⟨rfl, (State.phase_endAttempt_beginAttempt hp .unsupported).trans (if_neg ?_)⟩
    simp [hvacant]
  | failed notices hbacking => cases hlacking.symm.trans hbacking
  | exited notices hbacking => cases hlacking.symm.trans hbacking
  | alreadySet notices hbacking => cases hlacking.symm.trans hbacking
  | unenforced notices hbacking => cases hlacking.symm.trans hbacking
  | set notices hbacking => cases hlacking.symm.trans hbacking

theorem raised_of_backed (h : Ends c p.begun done) (hp : p.state.Orderly)
    (hfailed : done.reported.2 ≠ .ok true) (hvacant : p.state.screen = none)
    (hbacked : c.backing ≠ .error .unsupported) :
    ∃ fault, done.reported.2 = .error fault ∧
      done.process.state.phase = if fault.isExit then .configuring else .unset := by
  have hphase : (p.begun.state.endAttempt .unset).phase = .unset := by
    refine (State.phase_endAttempt_beginAttempt hp .unset).trans (if_neg ?_)
    simp [hvacant]
  cases h with
  | unsupported notices hlacking => exact absurd hlacking hbacked
  | failed notices hbacking hmade hfailure =>
    refine ⟨_, rfl, ?_⟩
    rw [hfailure]
    exact hphase
  | exited notices hbacking hmade hexit =>
    refine ⟨_, rfl, ?_⟩
    rw [hexit]
    exact State.phase_beginAttempt_of_vacant hp hvacant
  | alreadySet notices hbacking hmade hheld =>
    have hbegun : p.begun.state.screen = none := (State.screen_beginAttempt _).trans hvacant
    simp [hbegun] at hheld
  | unenforced => exact ⟨_, rfl, hphase⟩
  | set => exact absurd rfl hfailed

end Ends

namespace Screener

variable {s : Screener} {bindings : Variables}

theorem ends_attempt (hp : p.state.Orderly) (hk : k.Ordinary) (s : Screener)
    (bindings : Variables) :
    ∃ done, Ends (.ofOrigin s.origin hk) p.begun done ∧
      (s.attempt k p bindings).site.process = done.process ∧
      (s.attempt k p bindings).reported = done.reported := by
  obtain ⟨hprocess, hreported, _⟩ := attempt_eq_finish s.origin s.outcome hk p bindings
  exact ⟨_, ends_finish hp.beginAttempt _, hprocess, hreported⟩

theorem succeeded_iff : ((s.operation k bindings).perform p).succeeded = true ↔
    (s.attempt k p bindings).reported.2 = .ok true := by
  change (Outcome.ofReported _ (s.attempt k p bindings).reported).succeeded = true ↔ _
  rcases (s.attempt k p bindings).reported with ⟨notices, fault | changed⟩ <;>
    simp [Outcome.ofReported]

/-- Only a registration that fails when its hook is registered adds to the hooks. -/
theorem hooks_of_ends {hk : k.Ordinary} {done : Process.Configured}
    (h : Ends (.ofOrigin s.origin hk) p.begun done) (hfailed : done.reported.2 ≠ .ok true) :
    done.process.hooks = p.hooks + s.strayed k p := by
  have hbegun : p.begun.state.screen = p.state.screen := State.screen_beginAttempt _
  have hhooks : p.begun.hooks = p.hooks := rfl
  cases h with
  | unsupported notices hlacking =>
    have hlacking : k.backing = .error .unsupported := hlacking
    simp [strayed, hlacking, hhooks, Process.withState]
  | failed notices hbacking hmade =>
    have hmade : (s.origin.make k).2 = _ := hmade
    simp [strayed, hmade, hhooks, Process.withState]
  | exited notices hbacking hmade =>
    have hmade : (s.origin.make k).2 = _ := hmade
    simp [strayed, hmade, hhooks]
  | alreadySet notices hbacking hmade hheld =>
    obtain ⟨held, hheld⟩ := Option.isSome_iff_exists.1 (hbegun ▸ hheld)
    simp [strayed, hheld, hhooks]
  | unenforced notices hbacking hmade hvacant =>
    have hbacking : k.backing = _ := hbacking
    have hmade : (s.origin.make k).2 = _ := hmade
    simp [strayed, hbegun ▸ hvacant, hbacking, hmade, hhooks, Process.unenforced]
  | set => exact absurd rfl hfailed

/-- An attempt that fails leaves what is screened as it was, and the phase tells how it failed. -/
theorem spares_attempt (hp : p.state.Orderly) (hk : k.Ordinary)
    (hfailed : (s.attempt k p bindings).reported.2 ≠ .ok true) : s.Spares k p bindings := by
  have hkeeps : Keeps p _ := Operation.keeps_of_failed hp (mt succeeded_iff.1 hfailed)
  obtain ⟨done, hends, hprocess, hreported⟩ := ends_attempt hp hk s bindings
  rw [hreported] at hfailed
  refine ⟨hkeeps.screen, hkeeps.enforced, hkeeps.completed, ?_, ?_, ?_, ?_, ?_⟩
  -- That the screen is kept says nothing of the phase; how the attempt ended does.
  all_goals rw [hprocess]
  · cases hends <;> rfl
  · exact hooks_of_ends hends hfailed
  · exact hends.phase_of_held hp hfailed
  · rw [hreported]
    exact hends.unsupported_of_lacking hp
  · rw [hreported]
    exact hends.raised_of_backed hp hfailed

/-- What a screener finds out when there is a screen to be set. -/
structure Gives (s : Screener) (k : Circumstances) (backing : Backing) (screen : Screen) :
    Prop where
  backed : k.backing = .ok backing
  made : (s.origin.make k).2 = .ok screen
  enforces : backing.Enforces

theorem gives_of_attempt (hp : p.state.Orderly) (hk : k.Ordinary)
    (hsucceeded : (s.attempt k p bindings).reported.2 = .ok true) :
    ∃ backing screen, s.Gives k backing screen := by
  obtain ⟨done, hends, -, hreported⟩ := ends_attempt hp hk s bindings
  rw [hreported] at hsucceeded
  cases hends with
  | set notices hbacking hmade henforces => exact ⟨_, _, hbacking, hmade, henforces⟩
  | _ => simp at hsucceeded

theorem attempt_of_gives (hp : p.state.Orderly) (hk : k.Ordinary)
    (hvacant : p.state.screen = none) {backing : Backing} {screen : Screen}
    (hgives : s.Gives k backing screen) (bindings : Variables) :
    (s.attempt k p bindings).reported.2 = .ok true ∧
      (s.attempt k p bindings).site.process = p.screened backing screen := by
  have hbegun : p.begun.state.screen = none := (State.screen_beginAttempt _).trans hvacant
  obtain ⟨done, hends, hprocess, hreported⟩ := ends_attempt hp hk s bindings
  rw [hprocess, hreported]
  cases hends with
  | unsupported notices hbacking => cases hgives.backed.symm.trans hbacking
  | failed notices hbacking hmade => cases hgives.made.symm.trans hmade
  | exited notices hbacking hmade => cases hgives.made.symm.trans hmade
  | alreadySet notices hbacking hmade hheld => simp [hbegun] at hheld
  | unenforced notices hbacking =>
    cases hgives.backed.symm.trans hbacking
    exact absurd hgives.enforces (Backing.not_enforces_failingHook _)
  | set notices hbacking hmade =>
    cases hgives.backed.symm.trans hbacking
    cases hgives.made.symm.trans hmade
    exact ⟨rfl, rfl⟩

theorem reported_of_made_error (hp : p.state.Orderly) (hk : k.Ordinary) {backing : Backing}
    {fault : Fault} (hbacking : k.backing = .ok backing)
    (hmade : (s.origin.make k).2 = .error fault) :
    (s.attempt k p bindings).reported.2 = .error fault := by
  obtain ⟨done, hends, -, hreported⟩ := ends_attempt hp hk s bindings
  rw [hreported]
  cases hends with
  | unsupported notices hlacking => cases hbacking.symm.trans hlacking
  | failed notices _ hfault =>
    cases hmade.symm.trans hfault
    rfl
  | exited notices _ hfault =>
    cases hmade.symm.trans hfault
    rfl
  | alreadySet notices _ hscreen => cases hmade.symm.trans hscreen
  | unenforced notices _ hscreen => cases hmade.symm.trans hscreen
  | set notices _ hscreen => cases hmade.symm.trans hscreen

/-- A screener with lasting contributors goes on making what it made. -/
theorem make_after (hlasts : s.origin.Lasts) (k' : Circumstances) :
    (s.after k' p bindings).origin.Lasts ∧
      ∀ k : Circumstances, (∃ backing, k.backing = .ok backing) →
        (s.after k' p bindings).origin.make k = s.origin.make k := by
  obtain ⟨origin, outcome⟩ := s
  cases origin with
  | givenPattern pattern => exact ⟨trivial, fun _ _ => rfl⟩
  | settings settings supply =>
    have hsupply : Configuration.supplyBehind supply k'.backing = supply := by
      cases supply with
      | passing contributors => exact absurd rfl (hlasts contributors)
      | _ => cases hbacking : k'.backing <;> rfl
    simp only [after, Origin.after, hsupply]
    refine ⟨hlasts, fun k ⟨backing, hbacking⟩ => ?_⟩
    -- A backing makes the settings validate anyway, whether they did so after `k'` or not.
    simp only [Origin.make, hbacking]
    cases k'.backing <;> rfl

end Screener

/-! ## Attempts one after the other -/

namespace Trials

variable {n : Nat} {screeners : Fin n → Screener} {t : Trials n} {c : Call n}
  {calls : List (Call n)}

def start (screeners : Fin n → Screener) : Trials n := ⟨{}, screeners⟩

def attempted (t : Trials n) (c : Call n) : Attempted :=
  (t.screeners c.number).attempt c.circumstances t.run.process c.bindings

def call (t : Trials n) (c : Call n) : Trials n where
  run := t.run.step ((t.screeners c.number).operation c.circumstances c.bindings)
  screeners := Function.update t.screeners c.number
    ((t.screeners c.number).after c.circumstances t.run.process c.bindings)

def after (t : Trials n) (calls : List (Call n)) : Trials n := calls.foldl call t

/-- None of the calls sets the screen. -/
def Fail (t : Trials n) : List (Call n) → Prop
  | [] => True
  | c :: calls => (t.attempted c).reported.2 ≠ .ok true ∧ (t.call c).Fail calls

/-- The hooks that calls leave behind. -/
def strayed (t : Trials n) : List (Call n) → Nat
  | [] => 0
  | c :: calls =>
    (t.screeners c.number).strayed c.circumstances t.run.process + (t.call c).strayed calls

/-- A call sets the screen as if it had been the first of these screeners; the hooks that were left
behind are there besides its own. -/
structure AsFirst (screeners : Fin n → Screener) (t : Trials n) (c : Call n) : Prop where
  reported : ((start screeners).attempted c).reported.2 = .ok true
  state : (t.call c).run.process.state = ((start screeners).call c).run.process.state
  completed : (t.call c).run.process.completed = ((start screeners).call c).run.process.completed
  callbacks : (t.call c).run.process.callbacks = ((start screeners).call c).run.process.callbacks
  hooks : (t.call c).run.process.hooks =
    t.run.process.hooks + ((start screeners).call c).run.process.hooks

/-- What a call that sets the screen has of the calls that failed before it: the hooks that were
left behind and, of contributors that can be gone through only once, the rest. -/
structure Inherits (screeners : Fin n → Screener) (failed : List (Call n)) (c : Call n) :
    Prop where
  hooks : ((start screeners).after failed).run.process.hooks = (start screeners).strayed failed
  asFirst : AsFirst ((start screeners).after failed).screeners ((start screeners).after failed) c
  lasting : (screeners c.number).origin.Lasts →
    AsFirst screeners ((start screeners).after failed) c
  /-- As many hooks are registered as by a first call exactly if none was left behind. -/
  traceless_iff : (screeners c.number).origin.Lasts →
    ((((start screeners).after failed).call c).run.process.hooks =
        ((start screeners).call c).run.process.hooks ↔
      (start screeners).strayed failed = 0)
  unhooked : (∀ d ∈ failed, d.circumstances.backing ≠ .ok (.failingHook true)) →
    (start screeners).strayed failed = 0

theorem writeOnce_call (h : t.run.WriteOnce) (c : Call n) : (t.call c).run.WriteOnce := h.step _

/-- The screen is not set yet, and no callback was called. -/
structure Open (t : Trials n) : Prop where
  writeOnce : t.run.WriteOnce
  vacant : t.run.process.state.screen = none
  callbacks : t.run.process.callbacks = 0

namespace Open

theorem start (screeners : Fin n → Screener) : Open (start screeners) := ⟨.initial, rfl, rfl⟩

theorem spares (h : Open t) (hk : c.circumstances.Ordinary)
    (hfailed : (t.attempted c).reported.2 ≠ .ok true) :
    (t.screeners c.number).Spares c.circumstances t.run.process c.bindings :=
  Screener.spares_attempt h.writeOnce.orderly hk hfailed

theorem call (h : Open t) (hk : c.circumstances.Ordinary)
    (hfailed : (t.attempted c).reported.2 ≠ .ok true) : Open (t.call c) :=
  ⟨writeOnce_call h.writeOnce c, (h.spares hk hfailed).screen.trans h.vacant,
    (h.spares hk hfailed).callbacks.trans h.callbacks⟩

theorem after (h : Open t) (hk : ∀ c ∈ calls, c.circumstances.Ordinary) (hfailed : t.Fail calls) :
    Open (t.after calls) := by
  induction calls generalizing t with
  | nil => exact h
  | cons c calls ih =>
    rw [List.forall_mem_cons] at hk
    exact ih (h.call hk.1 hfailed.1) hk.2 hfailed.2

theorem hooks_after (h : Open t) (hk : ∀ c ∈ calls, c.circumstances.Ordinary)
    (hfailed : t.Fail calls) :
    (t.after calls).run.process.hooks = t.run.process.hooks + t.strayed calls := by
  induction calls generalizing t with
  | nil => rfl
  | cons c calls ih =>
    rw [List.forall_mem_cons] at hk
    have hfirst : (t.call c).run.process.hooks = t.run.process.hooks +
        (t.screeners c.number).strayed c.circumstances t.run.process :=
      (h.spares hk.1 hfailed.1).hooks
    have hrest := ih (h.call hk.1 hfailed.1) hk.2 hfailed.2
    rw [hfirst, Nat.add_assoc] at hrest
    exact hrest

/-- Whatever was tried before, the call that sets the screen finds the process as good as new. -/
theorem asFirst (h : Open t) (hk : c.circumstances.Ordinary)
    (hsucceeded : (t.attempted c).reported.2 = .ok true) {screeners : Fin n → Screener}
    (hmake : ∀ backing, c.circumstances.backing = .ok backing →
      (t.screeners c.number).origin.make c.circumstances =
        (screeners c.number).origin.make c.circumstances) : AsFirst screeners t c := by
  obtain ⟨backing, screen, hgives⟩ :=
    Screener.gives_of_attempt h.writeOnce.orderly hk hsucceeded
  have hfirst : (screeners c.number).Gives c.circumstances backing screen :=
    ⟨hgives.backed, hmake _ hgives.backed ▸ hgives.made, hgives.enforces⟩
  have hlater : (t.call c).run.process = t.run.process.screened backing screen :=
    (Screener.attempt_of_gives h.writeOnce.orderly hk h.vacant hgives c.bindings).2
  obtain ⟨hreported, hprocess⟩ :=
    Screener.attempt_of_gives (Open.start screeners).writeOnce.orderly hk rfl hfirst c.bindings
  have hnew : ((Trials.start screeners).call c).run.process =
      ({} : Process).screened backing screen := hprocess
  have hstate : (t.call c).run.process.state =
      ((Trials.start screeners).call c).run.process.state := by
    rw [hlater, hnew]
    rfl
  refine ⟨hreported, hstate, ?_, ?_, ?_⟩
  · rw [(writeOnce_call h.writeOnce c).completed,
      (writeOnce_call (Open.start screeners).writeOnce c).completed, hstate]
  · rw [hlater, hnew]
    exact h.callbacks
  · rw [hlater, hnew]
    simp [Process.screened]

end Open

theorem strayed_eq_zero (t : Trials n)
    (h : ∀ c ∈ calls, c.circumstances.backing ≠ .ok (.failingHook true)) : t.strayed calls = 0 := by
  induction calls generalizing t with
  | nil => rfl
  | cons c calls ih =>
    rw [List.forall_mem_cons] at h
    rw [strayed, Screener.strayed_eq_zero h.1, ih (t.call c) h.2]

theorem make_call {i : Fin n} (h : (t.screeners i).origin.Lasts) (c : Call n) :
    ((t.call c).screeners i).origin.Lasts ∧
      ∀ k : Circumstances, (∃ backing, k.backing = .ok backing) →
        ((t.call c).screeners i).origin.make k = (t.screeners i).origin.make k := by
  by_cases hi : i = c.number
  · subst hi
    simpa [Trials.call] using Screener.make_after h c.circumstances
  · simpa [Trials.call, hi] using h

theorem make_after {i : Fin n} (h : (t.screeners i).origin.Lasts) (calls : List (Call n))
    (k : Circumstances) (hk : ∃ backing, k.backing = .ok backing) :
    ((t.after calls).screeners i).origin.make k = (t.screeners i).origin.make k := by
  induction calls generalizing t with
  | nil => rfl
  | cons c calls ih =>
    obtain ⟨hlasts, hmake⟩ := make_call h c
    exact (ih hlasts).trans (hmake k hk)

theorem inherits_of_fail {screeners : Fin n → Screener}
    (hk : ∀ d ∈ calls, d.circumstances.Ordinary) (hc : c.circumstances.Ordinary)
    (hfailed : (start screeners).Fail calls)
    (hsucceeded : (((start screeners).after calls).attempted c).reported.2 = .ok true) :
    Inherits screeners calls c := by
  have hopen := (Open.start screeners).after hk hfailed
  have hhooks : ((start screeners).after calls).run.process.hooks =
      (start screeners).strayed calls :=
    ((Open.start screeners).hooks_after hk hfailed).trans (Nat.zero_add _)
  have hlasting (hlasts : (screeners c.number).origin.Lasts) :
      AsFirst screeners ((start screeners).after calls) c :=
    hopen.asFirst hc hsucceeded fun backing hbacking =>
      make_after hlasts calls c.circumstances ⟨backing, hbacking⟩
  refine ⟨hhooks, hopen.asFirst hc hsucceeded fun _ _ => rfl, hlasting, fun hlasts => ?_,
    strayed_eq_zero _⟩
  rw [(hlasting hlasts).hooks, hhooks, Nat.add_eq_right]

end Trials

/-- After any run, an attempt that sets no screen leaves what is screened as it was, with the phase
to tell how it ended. After any attempts that fail, the one that sets the screen does so as if it
had been the first, but for the hooks that were left behind and the contributors that were used
up. -/
theorem traces_attempts {n : Nat} (operations : List Operation) (s : Screener)
    (k : Circumstances) (bindings : Variables) (screeners : Fin n → Screener)
    (failed : List (Call n)) (c : Call n) :
    (k.Ordinary → (s.attempt k (run operations).process bindings).reported.2 ≠ .ok true →
      s.Spares k (run operations).process bindings) ∧
    ((∀ d ∈ failed, d.circumstances.Ordinary) → c.circumstances.Ordinary →
      (Trials.start screeners).Fail failed →
      (((Trials.start screeners).after failed).attempted c).reported.2 = .ok true →
      Trials.Inherits screeners failed c) := by
  have hrun : (run operations).WriteOnce := Run.writeOnce_foldl .initial operations
  exact ⟨Screener.spares_attempt hrun.orderly, Trials.inherits_of_fail⟩

/-- Three configurations of the same process; the pattern of the second one is malformed. -/
def threeScreeners : Fin 3 → Screener
  | 0 => ⟨.settings .standard .discovered, .unset⟩
  | 1 => ⟨.givenPattern (some "a**".toList), .unset⟩
  | 2 => ⟨.givenPattern (some "!a.*".toList), .unset⟩

/-- A registration that fails when its hook is registered. -/
def failedRegistration : Call 3 := ⟨2, ⟨.ok (.failingHook true), .ok [], true⟩, .empty⟩

/-- There is no backing, an entry does not load, the program is told to end, a pattern is malformed,
and a registration fails when its hook is registered. -/
def fiveFailures : List (Call 3) :=
  [⟨0, ⟨.error .unsupported, .ok [], true⟩, .empty⟩,
    ⟨0, ⟨.ok .hook, .error (.unloadableEntry "late".toList .moduleNotFound), true⟩, .empty⟩,
    ⟨0, ⟨.ok .hook, .error .exit, true⟩, .empty⟩,
    ⟨1, ⟨.ok .streams, .ok [], true⟩, .empty⟩, failedRegistration]

def withHooks : Call 3 := ⟨2, ⟨.ok .hook, .ok [], true⟩, .empty⟩

theorem traces_attempts_fiveFailures :
    (threeScreeners 2).Spares ⟨.ok (.failingHook true), .ok [], true⟩ (run []).process .empty ∧
      Trials.AsFirst threeScreeners ((Trials.start threeScreeners).after fiveFailures) withHooks ∧
      ((Trials.start threeScreeners).after fiveFailures).run.process.hooks = 1 := by
  obtain ⟨hspares, hinherits⟩ := traces_attempts [] (threeScreeners 2)
    ⟨.ok (.failingHook true), .ok [], true⟩ .empty threeScreeners fiveFailures withHooks
  have hordinary : ∀ d ∈ fiveFailures, d.circumstances.Ordinary := by
    simp only [fiveFailures, List.forall_mem_cons, List.not_mem_nil, false_implies, implies_true,
      and_true]
    exact ⟨⟨by simp, by simp⟩, ⟨by simp, by simp [Fault.Ordinary]⟩,
      ⟨by simp, by simp [Fault.Ordinary]⟩, ⟨by simp, by simp⟩,
      ⟨by simp [failedRegistration], by simp [failedRegistration]⟩⟩
  have hfail : (Trials.start threeScreeners).Fail fiveFailures := by
    refine ⟨?_, ?_, ?_, ?_, ?_, trivial⟩ <;> exact mt Screener.succeeded_iff.2 (by decide +kernel)
  have hinherited : Trials.Inherits threeScreeners fiveFailures withHooks :=
    hinherits hordinary ⟨by simp [withHooks], by simp [withHooks]⟩ hfail
      (Screener.succeeded_iff.1 (by decide +kernel))
  exact ⟨hspares ⟨by simp, by simp⟩ (mt Screener.succeeded_iff.2 (by decide +kernel)),
    hinherited.lasting trivial, hinherited.hooks⟩

/-- A call that sets the screen behind one whose registration failed has two hooks registered, where
it would have registered one as the first call. -/
theorem hooks_ne_asFirst_failedRegistration :
    failedRegistration.circumstances.Ordinary ∧ withHooks.circumstances.Ordinary ∧
      (Trials.start threeScreeners).Fail [failedRegistration] ∧
      (((Trials.start threeScreeners).after [failedRegistration]).attempted withHooks).reported.2 =
        .ok true ∧
      (((Trials.start threeScreeners).after [failedRegistration]).call
          withHooks).run.process.hooks ≠
        ((Trials.start threeScreeners).call withHooks).run.process.hooks := by
  refine ⟨⟨by simp [failedRegistration], by simp [failedRegistration]⟩,
    ⟨by simp [withHooks], by simp [withHooks]⟩, ⟨?_, trivial⟩, ?_, by decide +kernel⟩
  · exact mt Screener.succeeded_iff.2 (by decide +kernel)
  · exact Screener.succeeded_iff.1 (by decide +kernel)

/-- The contributor can be asked only once. -/
def oncePassing : Fin 3 → Screener := fun _ =>
  ⟨.settings .standard (.passing [⟨"once".toList, .ok ["a.b".toList]⟩]), .unset⟩

/-- Behind the failed call there is nobody left to sanction a name. -/
example : (((Trials.start oncePassing).after [failedRegistration]).screeners 2).origin =
    .settings ⟨true, none⟩ (.passing []) := rfl

end Gatekeeper.Guard
