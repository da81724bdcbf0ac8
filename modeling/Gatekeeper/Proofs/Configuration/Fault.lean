import Gatekeeper.Contributor.Discovery
import Gatekeeper.Proofs.Guard.Ending
import Gatekeeper.Proofs.Screening.Segments

/-!
# What a configuration fails with

Contributors, entries and patterns fail with faults of their own, which an attempt never takes for
an answer about the guard (`ordinary_of_make`). So what a configuration finds out makes a contender.
-/

namespace Gatekeeper

open Contributor (Supply)
open Guard (Backing Contender Origin Probes)
open Screening (NameSet Pattern Screen)

variable {fault : Fault} {names : NameSet} {source : Text}

/-! ## Contributors -/

theorem eq_error_of_map {α β : Type} {f : α → β} {x : Except Fault α}
    (h : x.map f = .error fault) : x = .error fault := by
  cases x with
  | error e => exact congrArg Except.error (Except.error.inj h)
  | ok a => cases h

namespace Contributor

variable {contributors : List Contributor} {entries : List Entry} {seen : List Key}

theorem readFault_of_inquire (h : (inquire names contributors).reported.2 = .error fault) :
    ∃ name reason, fault = readFault name reason := by
  induction contributors generalizing names with
  | nil => simp [inquire] at h
  | cons c rest ih =>
    cases hlist : c.acceptList with
    | error reason =>
      simp only [inquire, hlist, Except.error.injEq] at h
      exact ⟨c.name, reason, h.symm⟩
    | ok list =>
      simp only [inquire, hlist] at h
      exact ih h

theorem unloadableEntry_of_search (h : (search seen entries).found = .error fault) :
    ∃ entry reason, fault = .unloadableEntry entry reason := by
  induction entries generalizing seen with
  | nil => simp [search] at h
  | cons entry rest ih =>
    unfold search at h
    split at h
    · exact ⟨_, _, (Except.error.inj h).symm⟩
    · split at h
      · exact ih h
      · split at h
        · exact ⟨_, _, (Except.error.inj h).symm⟩
        · exact ih (eq_error_of_map h)

theorem unloadableEntry_of_discover {arrays : Bool} (h : discover arrays entries = .error fault) :
    ∃ entry reason, fault = .unloadableEntry entry reason :=
  unloadableEntry_of_search (eq_error_of_map h)

theorem ordinary_readFault (name : Text) (reason : ReadFailure) :
    (readFault name reason).Ordinary := by
  cases reason <;> exact ⟨by simp [readFault], by simp [readFault]⟩

end Contributor

/-! ## Patterns -/

theorem Screening.Screen.malformedClause_of_ofPatternBeyond
    (h : Screen.ofPatternBeyond names source = .error fault) :
    ∃ t, fault = .malformedClause t := by
  unfold Screen.ofPatternBeyond Screen.ofPattern at h
  rw [Pattern.read_eq] at h
  cases hfind : (Screening.clauseTexts source).find? fun t => (Screening.Clause.read? t).isNone with
  | some t =>
    rw [hfind] at h
    exact ⟨t, (Except.error.inj h).symm⟩
  | none =>
    rw [hfind] at h
    simp at h

/-! ## Configurations -/

namespace Configuration

variable {k : Circumstances} {clause : Option Text}

/-- Circumstances in which nothing but the lack of a backing speaks about the guard. -/
structure Circumstances.Ordinary (k : Circumstances) : Prop where
  backing : ∀ fault, k.backing = .error fault → fault = .unsupported
  contributors : ∀ fault, k.contributors = .error fault → fault.Ordinary

theorem ordinary_of_discover (probes : Probes) (arrays : Bool) (entries : List Contributor.Entry)
    (permitted : Bool) :
    Circumstances.Ordinary ⟨probes.backing, Contributor.discover arrays entries, permitted⟩ where
  backing := by
    intro fault h
    simp only [Probes.backing] at h
    split at h
    · simp at h
    · split at h
      · simp at h
      · exact (Except.error.inj h).symm
  contributors := by
    intro fault h
    obtain ⟨entry, reason, rfl⟩ := Contributor.unloadableEntry_of_discover h
    exact ⟨by simp, by simp⟩

theorem ordinary_of_screenBeyond (hk : k.Ordinary) {supply : Supply}
    (h : (screenBeyond clause (supply.contributors k.contributors)).2 = .error fault) :
    fault.Ordinary := by
  rcases Reported.andThen_eq_error_iff.1 h with hcontributors | ⟨contributors, _, h⟩
  · cases supply with
    | discovered => exact hk.contributors fault hcontributors
    | listed contributors => cases hcontributors
    | passing contributors => cases hcontributors
  · rcases Reported.andThen_eq_error_iff.1 h with hmerge | ⟨names, _, h⟩
    · obtain ⟨name, reason, rfl⟩ := Contributor.readFault_of_inquire hmerge
      exact Contributor.ordinary_readFault name reason
    · obtain ⟨t, rfl⟩ := Screen.malformedClause_of_ofPatternBeyond h
      exact ⟨by simp, by simp⟩

theorem ordinary_of_screenOfVariable {pattern : Option Text}
    (h : (screenOfVariable pattern).2 = .error fault) : fault.Ordinary := by
  cases pattern with
  | none =>
    obtain rfl : Fault.required .pattern = fault := Except.error.inj h
    exact ⟨by simp, by simp⟩
  | some pattern =>
    obtain ⟨t, rfl⟩ := Screen.malformedClause_of_ofPatternBeyond h
    exact ⟨by simp, by simp⟩

end Configuration

namespace Guard

open Gatekeeper.Configuration (Circumstances Variables)

variable {k : Circumstances}

theorem Origin.ordinary_of_make (hk : k.Ordinary) {origin : Origin}
    (h : (origin.make k).2 = .error fault) : fault.Ordinary := by
  cases origin with
  | settings s supply => exact Configuration.ordinary_of_screenBeyond hk h
  | givenPattern pattern => exact Configuration.ordinary_of_screenOfVariable h

def Contender.ofOrigin (origin : Origin) (hk : k.Ordinary) : Contender where
  backing := k.backing
  made := origin.make k
  unsupported_of_error := hk.backing
  ordinary_of_error := fun _ h => origin.ordinary_of_make hk h

/-- An attempt of a configuration is begun and finished without a break. -/
theorem attempt_eq_finish (origin : Origin) (outcome : Phase) (hk : k.Ordinary) (p : Process)
    (bindings : Variables) :
    let done := p.begun.finish (.ofOrigin origin hk)
    let attempted := (⟨origin.plan, outcome⟩ : Configuration).attempt k ⟨p, bindings⟩
    attempted.site.process = done.process ∧ attempted.reported = done.reported ∧
      attempted.configuration.outcome = done.outcome.getD outcome := by
  cases origin <;> exact ⟨rfl, rfl, rfl⟩

end Guard
end Gatekeeper
