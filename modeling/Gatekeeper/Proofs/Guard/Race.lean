import Gatekeeper.Proofs.Guard.Ending
import Mathlib.Data.List.Induction
import Mathlib.Logic.Function.Basic

/-!
# Attempts that race

Any number of attempts are made on one process. Each takes two steps, to begin and to finish, and
the steps of all of them follow each other in any order. Main statement: once all are over exactly
one of those that came to offer a screen has set it, and the guard is never left configuring
(`oneWinner_race`).
-/

namespace Gatekeeper.Guard

open Screening (Screen)

/-- A contender whose enforcement, if it brings one, does not fail, and which abandons its attempt
where it cannot make a screen. -/
structure Entrant extends Contender where
  enforces : ∀ b, backing = .ok b → b.Enforces
  abandons : ∀ fault, made.2 = .error fault → fault.isExit = false

inductive Stage
  | waiting
  | inFlight
  | ended (outcome : Phase)

def Stage.steps : Stage → Nat
  | .waiting => 0
  | .inFlight => 1
  | .ended _ => 2

structure Race (n : Nat) where
  process : Process := {}
  stages : Fin n → Stage := fun _ => .waiting

variable {n : Nat} {entrants : Fin n → Entrant} {r : Race n} {i j : Fin n} {p q : Process}
  {c : Contender} {o : Phase}

namespace Race

/-- The next step of one entrant. An attempt that a fault ended records no outcome. -/
def step (entrants : Fin n → Entrant) (r : Race n) (i : Fin n) : Race n :=
  match r.stages i with
  | .waiting => ⟨r.process.begun, Function.update r.stages i .inFlight⟩
  | .inFlight =>
    let done := r.process.finish (entrants i).toContender
    ⟨done.process, Function.update r.stages i (.ended (done.outcome.getD .unset))⟩
  | .ended _ => r

def Over (r : Race n) : Prop := ∀ i, ∃ outcome, r.stages i = .ended outcome

/-- The phase tells whether there is a screen, and is left at configuring by nobody. Once the race
is over, one entrant of those that offered a screen has set its own, and the others came late. -/
structure OneWinner (entrants : Fin n → Entrant) (r : Race n) : Prop where
  set_iff : r.process.state.phase = .set ↔ r.process.state.screen.isSome = true
  inFlight : r.process.state.phase = .configuring → ∃ i, r.stages i = .inFlight
  decided : r.Over → (∃ i, (entrants i).offer?.isSome = true) →
    ∃ i, r.stages i = .ended .set ∧ (entrants i).offer?.isSome = true ∧
      r.process.state.screen = (entrants i).offer? ∧
      ∀ j, j ≠ i → r.stages j ≠ .ended .set ∧
        ((entrants j).offer?.isSome = true → r.stages j = .ended .alreadySet)
  void : (∀ i, (entrants i).offer? = none) →
    r.process.state.screen = none ∧ ∀ i, r.stages i ≠ .ended .set

end Race

def race (entrants : Fin n → Entrant) (schedule : List (Fin n)) : Race n :=
  schedule.foldl (Race.step entrants) {}

/-! ## One step -/

theorem State.phase_endAttempt_ne_configuring {s : State} (ho : o ≠ .configuring) :
    (s.endAttempt o).phase ≠ .configuring := by
  unfold endAttempt
  split
  · exact ho
  · assumption

theorem ended_of_update {stages : Fin n → Stage} {s : Stage}
    (h : Function.update stages i s j = .ended o) :
    j = i ∧ s = .ended o ∨ j ≠ i ∧ stages j = .ended o := by
  by_cases hji : j = i
  · rw [hji, Function.update_self] at h
    exact Or.inl ⟨hji, h⟩
  · rw [Function.update_of_ne hji] at h
    exact Or.inr ⟨hji, h⟩

namespace Race

/-- What holds while a race is on. -/
structure Fair (entrants : Fin n → Entrant) (r : Race n) : Prop where
  orderly : r.process.state.Orderly
  inFlight : r.process.state.phase = .configuring → ∃ i, r.stages i = .inFlight
  winner : r.process.state.screen.isSome = true → ∃ i, r.stages i = .ended .set
  won : ∀ i, r.stages i = .ended .set →
    (entrants i).offer?.isSome = true ∧ r.process.state.screen = (entrants i).offer?
  unique : ∀ i j, r.stages i = .ended .set → r.stages j = .ended .set → i = j
  lost : ∀ i outcome, r.stages i = .ended outcome → (entrants i).offer?.isSome = true →
    outcome ≠ .set → outcome = .alreadySet ∧ r.process.state.screen.isSome = true

namespace Fair

theorem initial : Fair entrants {} where
  orderly := State.Orderly.initial
  inFlight := by simp
  winner := by simp
  won := by simp
  unique := by simp
  lost := by simp

/-- A step that leaves the screen as it was. An entrant that offers a screen can lose only because
there is one. -/
theorem keeps (h : r.Fair entrants) (hopen : ∀ o, r.stages i ≠ .ended o) {stage : Stage}
    (hq : q.state.Orderly) (hscreen : q.state.screen = r.process.state.screen)
    (hphase : q.state.phase = .configuring → stage = .inFlight) (hset : stage ≠ .ended .set)
    (hlost : ∀ o, stage = .ended o → (entrants i).offer?.isSome = true →
      o = .alreadySet ∧ r.process.state.screen.isSome = true) :
    Fair entrants ⟨q, Function.update r.stages i stage⟩ := by
  have hwon : ∀ j, Function.update r.stages i stage j = .ended .set → r.stages j = .ended .set := by
    intro j hj
    rcases ended_of_update hj with ⟨_, hstage⟩ | ⟨_, hstage⟩
    · exact absurd hstage hset
    · exact hstage
  refine ⟨hq, fun hc => ⟨i, by simp [hphase hc]⟩, ?_, ?_, ?_, ?_⟩
  · intro hsome
    obtain ⟨j, hj⟩ := h.winner (hscreen ▸ hsome)
    have hji : j ≠ i := by
      rintro rfl
      exact hopen _ hj
    exact ⟨j, by simpa [hji] using hj⟩
  · intro j hj
    simpa [hscreen] using h.won j (hwon j hj)
  · exact fun j k hj hk => h.unique j k (hwon j hj) (hwon k hk)
  · intro j outcome hj hoffer hne
    rw [hscreen]
    rcases ended_of_update hj with ⟨rfl, hstage⟩ | ⟨_, hstage⟩
    · exact hlost outcome hstage hoffer
    · exact h.lost j outcome hstage hoffer hne

theorem begins (h : r.Fair entrants) (hi : r.stages i = .waiting) :
    Fair entrants ⟨r.process.begun, Function.update r.stages i .inFlight⟩ :=
  h.keeps (by simp [hi]) h.orderly.beginAttempt (State.screen_beginAttempt _) (fun _ => rfl)
    (by simp) (by simp)

/-- The first that offers a screen where there is none wins; nobody has ended with a screen to
offer before it. -/
theorem wins (h : r.Fair entrants) (hq : q.state.Orderly) (hphase : q.state.phase ≠ .configuring)
    (hvacant : r.process.state.screen = none) (hoffer : (entrants i).offer?.isSome = true)
    (hscreen : q.state.screen = (entrants i).offer?) :
    Fair entrants ⟨q, Function.update r.stages i (.ended .set)⟩ := by
  have hset : ∀ j, Function.update r.stages i (.ended .set) j = .ended .set → j = i := by
    intro j hj
    rcases ended_of_update hj with ⟨hji, _⟩ | ⟨_, hstage⟩
    · exact hji
    · obtain ⟨hsome, hwon⟩ := h.won j hstage
      rw [← hwon, hvacant] at hsome
      simp at hsome
  refine ⟨hq, fun hc => absurd hc hphase, fun _ => ⟨i, Function.update_self ..⟩, ?_, ?_, ?_⟩
  · intro j hj
    rw [hset j hj]
    exact ⟨hoffer, hscreen⟩
  · intro j k hj hk
    rw [hset j hj, hset k hk]
  · intro j outcome hj hsome hne
    rcases ended_of_update hj with ⟨_, hstage⟩ | ⟨_, hstage⟩
    · exact absurd (Stage.ended.inj hstage).symm hne
    · have hheld := (h.lost j outcome hstage hsome hne).2
      rw [hvacant] at hheld
      simp at hheld

theorem finishes (h : r.Fair entrants) (hi : r.stages i = .inFlight) :
    Fair entrants
      ⟨(r.process.finish (entrants i).toContender).process, Function.update r.stages i
        (.ended ((r.process.finish (entrants i).toContender).outcome.getD .unset))⟩ := by
  generalize hdone : r.process.finish (entrants i).toContender = done
  have hends := hdone ▸ ends_finish h.orderly (entrants i).toContender
  have hopen : ∀ o, r.stages i ≠ .ended o := by simp [hi]
  cases hends with
  | unsupported notices hbacking =>
    refine h.keeps hopen (h.orderly.endAttempt (Or.inr rfl)) (State.screen_endAttempt _ _)
      (fun hc => absurd hc (State.phase_endAttempt_ne_configuring (by simp))) (by simp) ?_
    simp [Contender.offer?, hbacking, Except.toOption]
  | failed notices hbacking hmade =>
    refine h.keeps hopen (h.orderly.endAttempt (Or.inl rfl)) (State.screen_endAttempt _ _)
      (fun hc => absurd hc (State.phase_endAttempt_ne_configuring (by simp))) (by simp) ?_
    simp [Contender.offer?, hmade, Except.toOption]
  | exited notices hbacking hmade hexit =>
    simp [(entrants i).abandons _ hmade] at hexit
  | alreadySet notices hbacking hmade hheld =>
    have hphase := h.orderly.set_iff.2 hheld
    exact h.keeps hopen h.orderly rfl (by simp [hphase]) (by simp) fun o ho _ =>
      ⟨(Stage.ended.inj ho).symm, hheld⟩
  | unenforced notices hbacking =>
    exact absurd ((entrants i).enforces _ hbacking) (Backing.not_enforces_failingHook _)
  | set notices hbacking hmade henforced hvacant =>
    have hoffer : (entrants i).offer? = (entrants i).made.2.toOption := by
      simp [Contender.offer?, hbacking, Except.toOption]
    rw [hmade] at hoffer
    exact h.wins (Process.orderly_screened _ _ _) (by simp [Process.screened]) hvacant
      (by simp [hoffer, Except.toOption]) hoffer.symm

theorem step (h : r.Fair entrants) (i : Fin n) : (r.step entrants i).Fair entrants := by
  unfold Race.step
  split
  · next hi => exact h.begins hi
  · next hi => exact h.finishes hi
  · exact h

theorem oneWinner (h : r.Fair entrants) : r.OneWinner entrants where
  set_iff := h.orderly.set_iff
  inFlight := h.inFlight
  decided := by
    intro hover ⟨k, hk⟩
    obtain ⟨outcome, hend⟩ := hover k
    -- Whether `k` has won or was too late, there is a screen, and so a winner.
    have hsome : r.process.state.screen.isSome = true := by
      by_cases hset : outcome = .set
      · rw [hset] at hend
        rw [(h.won k hend).2]
        exact hk
      · exact (h.lost k outcome hend hk hset).2
    obtain ⟨i, hi⟩ := h.winner hsome
    refine ⟨i, hi, (h.won i hi).1, (h.won i hi).2, fun j hji => ?_⟩
    have hlate : r.stages j ≠ .ended .set := fun hj => hji (h.unique j i hj hi)
    refine ⟨hlate, fun hoffer => ?_⟩
    obtain ⟨outcome, hj⟩ := hover j
    have hne : outcome ≠ .set := by
      rintro rfl
      exact hlate hj
    rw [hj, (h.lost j outcome hj hoffer hne).1]
  void := by
    intro hnone
    have hlate : ∀ i, r.stages i ≠ .ended .set := by
      intro i hi
      have hoffer := (h.won i hi).1
      rw [hnone i] at hoffer
      simp at hoffer
    refine ⟨?_, hlate⟩
    cases hscreen : r.process.state.screen with
    | none => rfl
    | some screen =>
      obtain ⟨i, hi⟩ := h.winner (by simp [hscreen])
      exact absurd hi (hlate i)

end Fair

/-- No step takes a screen away. -/
theorem screen_step (h : r.Fair entrants) (hsome : r.process.state.screen.isSome = true)
    (i : Fin n) : (r.step entrants i).process.state.screen = r.process.state.screen := by
  unfold step
  split
  · exact State.screen_beginAttempt _
  · have hends := ends_finish h.orderly (entrants i).toContender
    generalize r.process.finish (entrants i).toContender = done at hends
    cases hends with
    | unsupported => exact State.screen_endAttempt _ _
    | failed => exact State.screen_endAttempt _ _
    | exited => rfl
    | alreadySet => rfl
    | unenforced => exact State.screen_endAttempt _ _
    | set _ _ _ _ hvacant => simp [hvacant] at hsome
  · rfl

theorem steps_step (r : Race n) (i j : Fin n) :
    ((r.step entrants i).stages j).steps =
      if j = i then min 2 ((r.stages j).steps + 1) else (r.stages j).steps := by
  unfold step
  by_cases hji : j = i
  · subst hji
    split <;> next hj => simp [hj, Stage.steps]
  · split <;> simp [hji]

theorem over_iff : r.Over ↔ ∀ i, (r.stages i).steps = 2 := by
  refine forall_congr' fun i => ?_
  cases r.stages i <;> simp [Stage.steps]

end Race

/-! ## Whole races -/

variable {schedule : List (Fin n)}

theorem race_append (schedule more : List (Fin n)) :
    race entrants (schedule ++ more) = more.foldl (Race.step entrants) (race entrants schedule) :=
  List.foldl_append

theorem Race.fair_foldl (h : r.Fair entrants) (schedule : List (Fin n)) :
    (schedule.foldl (Race.step entrants) r).Fair entrants := by
  induction schedule generalizing r with
  | nil => exact h
  | cons i schedule ih => exact ih (h.step i)

theorem Race.screen_foldl (h : r.Fair entrants) (hsome : r.process.state.screen.isSome = true)
    (schedule : List (Fin n)) :
    (schedule.foldl (Race.step entrants) r).process.state.screen = r.process.state.screen := by
  induction schedule generalizing r with
  | nil => rfl
  | cons i schedule ih =>
    have hstep := Race.screen_step h hsome i
    rw [List.foldl_cons, ih (h.step i) (by rwa [hstep]), hstep]

/-- Each turn of an entrant is a step of its attempt, until the attempt is over. -/
theorem steps_race (schedule : List (Fin n)) (i : Fin n) :
    ((race entrants schedule).stages i).steps = min 2 (schedule.count i) := by
  induction schedule using List.reverseRecOn with
  | nil => rfl
  | append_singleton schedule j ih =>
    rw [race_append, List.foldl_cons, List.foldl_nil, Race.steps_step, ih, List.count_append]
    by_cases hij : i = j
    · simp [hij]
      omega
    · simp [hij, Ne.symm hij]

/-- In whatever order the steps of the attempts follow each other, one wins at most, and one does if
any came to offer a screen. A screen that is set stays. The race is over as soon as each attempt has
had two turns. -/
theorem oneWinner_race (entrants : Fin n → Entrant) (schedule more : List (Fin n)) :
    (race entrants schedule).OneWinner entrants ∧
      ((race entrants schedule).process.state.screen.isSome = true →
        (race entrants (schedule ++ more)).process.state.screen =
          (race entrants schedule).process.state.screen) ∧
      ((race entrants schedule).Over ↔ ∀ i, 2 ≤ schedule.count i) := by
  have hfair : (race entrants schedule).Fair entrants := Race.fair_foldl .initial schedule
  refine ⟨hfair.oneWinner, fun hsome => ?_, ?_⟩
  · rw [race_append]
    exact Race.screen_foldl hfair hsome more
  · rw [Race.over_iff]
    refine forall_congr' fun i => ?_
    rw [steps_race]
    omega

/-- The first has no backing, the second cannot make its screen, and the others offer one each. -/
def fourEntrants : Fin 4 → Entrant
  | 0 =>
    { backing := .error .unsupported, made := .success (.constant .allowed)
      unsupported_of_error := by simp
      ordinary_of_error := by simp [Reported.success]
      enforces := by simp
      abandons := by simp [Reported.success] }
  | 1 =>
    { backing := .ok .hook, made := .failure (.malformedClause "a**".toList)
      unsupported_of_error := by simp
      ordinary_of_error := by simp [Reported.failure, Fault.Ordinary]
      enforces := by simp [Backing.enforces_hook]
      abandons := by simp [Reported.failure, Fault.isExit] }
  | 2 =>
    { backing := .ok .streams, made := .success (.constant .allowed)
      unsupported_of_error := by simp
      ordinary_of_error := by simp [Reported.success]
      enforces := by simp [Backing.enforces_streams]
      abandons := by simp [Reported.success] }
  | 3 =>
    { backing := .ok .hook, made := .success (.constant .rejected)
      unsupported_of_error := by simp
      ordinary_of_error := by simp [Reported.success]
      enforces := by simp [Backing.enforces_hook]
      abandons := by simp [Reported.success] }

/-- All begin before any of them is finished, and one that gives up comes between. -/
def fourTurns : List (Fin 4) := [0, 1, 2, 3, 1, 3, 0, 2]

theorem oneWinner_race_fourEntrants :
    (race fourEntrants fourTurns).OneWinner fourEntrants ∧ (race fourEntrants fourTurns).Over ∧
      (race fourEntrants fourTurns).stages 3 = .ended .set ∧
      (race fourEntrants fourTurns).stages 2 = .ended .alreadySet ∧
      (race fourEntrants fourTurns).process.state.screen = some (.constant .rejected) := by
  obtain ⟨hwinner, -, hover⟩ := oneWinner_race fourEntrants fourTurns []
  have hall : (race fourEntrants fourTurns).Over := hover.2 (by decide)
  have hset : (race fourEntrants fourTurns).stages 3 = .ended .set := rfl
  obtain ⟨i, -, -, -, hlate⟩ := hwinner.decided hall ⟨2, rfl⟩
  have hi : 3 = i := not_not.1 fun hne => (hlate 3 hne).1 hset
  exact ⟨hwinner, hall, hset, (hlate 2 (by simp [← hi])).2 rfl, rfl⟩

end Gatekeeper.Guard
