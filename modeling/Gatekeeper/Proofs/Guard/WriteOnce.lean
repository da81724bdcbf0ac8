import Gatekeeper.Proofs.Guard.Operation

/-!
# The screen is set once

A run performs operations one after the other on a process that starts without a screen, and keeps
account of those that said they set it. Main statement: after every run at most one of them did, the
screen and its enforcement are that one's, and no further operation changes them (`writeOnce_run`).
-/

namespace Gatekeeper.Guard

/-- The operations that succeeded are kept in order. -/
structure Run where
  process : Process := {}
  winners : List Operation := []

namespace Run

def step (r : Run) (o : Operation) : Run where
  process := (o.perform r.process).process
  winners := if (o.perform r.process).succeeded then r.winners ++ [o] else r.winners

structure WriteOnce (r : Run) : Prop where
  orderly : r.process.state.Orderly
  winners : r.winners.length = if r.process.state.screen.isSome then 1 else 0
  offered : ∀ o ∈ r.winners, o.offer? = r.process.state.screen
  enforced_iff : r.process.state.enforced = true ↔
    ∃ o ∈ r.winners, o.enforcement?.isSome = true
  completed : r.process.completed = if r.process.state.enforced then 1 else 0

end Run

def run (operations : List Operation) : Run := operations.foldl Run.step {}

variable {r : Run} {o : Operation}

theorem run_append (operations more : List Operation) :
    run (operations ++ more) = more.foldl Run.step (run operations) := by
  rw [run, List.foldl_append, ← run]

/-! ## One step -/

def Preserved (p q : Process) : Prop :=
  p.state.screen.isSome = true →
    q.state.screen = p.state.screen ∧ q.state.enforced = p.state.enforced

namespace Operation

theorem preserved_perform {p : Process} (hp : p.state.Orderly) :
    Preserved p (o.perform p).process := by
  intro hsome
  by_cases hsucceeded : (o.perform p).succeeded = true
  · have hsets := sets_of_succeeded hp hsucceeded
    rw [hsets.vacant] at hsome
    simp at hsome
  · have hkeeps := keeps_of_failed hp hsucceeded
    exact ⟨hkeeps.screen, hkeeps.enforced⟩

end Operation

namespace Run.WriteOnce

theorem initial : WriteOnce {} where
  orderly := State.Orderly.initial
  winners := rfl
  offered := by simp
  enforced_iff := by simp
  completed := rfl

theorem winners_eq_nil (h : r.WriteOnce) (hvacant : r.process.state.screen = none) :
    r.winners = [] := by
  have hlength := h.winners
  rw [hvacant] at hlength
  exact List.length_eq_zero_iff.1 hlength

/-- The operation that sets the screen is the first to succeed. -/
theorem step_of_sets (h : r.WriteOnce) (hsucceeded : (o.perform r.process).succeeded = true) :
    (r.step o).WriteOnce := by
  have hsets := Operation.sets_of_succeeded h.orderly hsucceeded
  have hwinners : (r.step o).winners = [o] := by
    simp [step, hsucceeded, h.winners_eq_nil hsets.vacant]
  have hcompleted : r.process.completed = 0 := by
    rw [h.completed, h.orderly.vacant hsets.vacant]
    rfl
  obtain ⟨screen, hscreen, hstate⟩ := hsets.state
  have hstep : (r.step o).process.state = ⟨.set, some screen, o.enforcement?.isSome⟩ := hstate
  refine ⟨hsets.orderly, ?_, ?_, ?_, ?_⟩
  · rw [hwinners, hstep]
    rfl
  · intro o' ho'
    rw [hwinners, List.mem_singleton] at ho'
    rw [ho', hstep]
    exact hscreen
  · rw [hwinners, hstep]
    simp
  · rw [step, hsets.completed, hcompleted, Nat.zero_add, hstate]

theorem step_of_keeps (h : r.WriteOnce) (hfailed : ¬ (o.perform r.process).succeeded = true) :
    (r.step o).WriteOnce := by
  have hkeeps := Operation.keeps_of_failed h.orderly hfailed
  have hwinners : (r.step o).winners = r.winners := by simp [step, hfailed]
  have hscreen : (r.step o).process.state.screen = r.process.state.screen := hkeeps.screen
  have henforced : (r.step o).process.state.enforced = r.process.state.enforced := hkeeps.enforced
  refine ⟨hkeeps.orderly, ?_, ?_, ?_, ?_⟩
  · rw [hwinners, hscreen]
    exact h.winners
  · rw [hwinners, hscreen]
    exact h.offered
  · rw [hwinners, henforced]
    exact h.enforced_iff
  · rw [henforced]
    exact hkeeps.completed.trans h.completed

theorem step (h : r.WriteOnce) (o : Operation) : (r.step o).WriteOnce := by
  by_cases hsucceeded : (o.perform r.process).succeeded = true
  · exact h.step_of_sets hsucceeded
  · exact h.step_of_keeps hsucceeded

end Run.WriteOnce

/-! ## Whole runs -/

theorem Run.writeOnce_foldl (h : r.WriteOnce) (operations : List Operation) :
    (operations.foldl Run.step r).WriteOnce := by
  induction operations generalizing r with
  | nil => exact h
  | cons o operations ih => exact ih (h.step o)

theorem Run.preserved_foldl (h : r.WriteOnce) (operations : List Operation) :
    Preserved r.process (operations.foldl Run.step r).process := by
  induction operations generalizing r with
  | nil => exact fun _ => ⟨rfl, rfl⟩
  | cons o operations ih =>
    intro hsome
    obtain ⟨hscreen, henforced⟩ := Operation.preserved_perform (o := o) h.orderly hsome
    have hsome' : (r.step o).process.state.screen.isSome = true := by
      rw [← hsome]
      exact congrArg Option.isSome hscreen
    obtain ⟨hscreen', henforced'⟩ := ih (h.step o) hsome'
    exact ⟨hscreen'.trans hscreen, henforced'.trans henforced⟩

/-- However operations follow each other, at most one of them succeeds. The phase says whether one
did, what is installed is that one's offer, it is enforced when that one brought an enforcement,
which then came to its end once, and none did otherwise. Whatever follows leaves the screen and its
enforcement as they are. -/
theorem writeOnce_run (operations more : List Operation) :
    (run operations).WriteOnce ∧
      ((run operations).process.state.screen.isSome = true →
        (run (operations ++ more)).process.state.screen = (run operations).process.state.screen ∧
          (run (operations ++ more)).process.state.enforced =
            (run operations).process.state.enforced) := by
  have hrun : (run operations).WriteOnce := Run.writeOnce_foldl .initial operations
  refine ⟨hrun, ?_⟩
  rw [run_append]
  exact Run.preserved_foldl hrun more

end Gatekeeper.Guard
