import Gatekeeper.Proofs.Guard.Mediation
import Gatekeeper.Proofs.Session.Progress
import Mathlib.Data.List.Induction

/-!
# Mediation over whole sessions

A hook cannot be taken away, so one that was registered by an installation that failed behind that
goes on asking for the screen of the process: it stays without effect until a screen is set, and
applies that one from then on. Main statement: whatever requests came before, a reader is refused
what its own screen rejects, and what the screen of the process rejects if it is enforced or such a
hook was left behind (`mediates_after`).
-/

namespace Gatekeeper.Session

open Guard (Enforcement Keeps Mediates Process Reader Sets State)
open Screening (Blueprint)

variable {host : Host} {s : Session} {requests : List Request} {p q : Process}

def after (host : Host) (s : Session) (requests : List Request) : Session :=
  requests.foldl (fun s q => (s.handle host q).1) s

theorem after_append (requests more : List Request) :
    after host s (requests ++ more) = after host (after host s requests) more :=
  List.foldl_append

/-- The answers to further requests are given by the session that the first ones leave behind. -/
theorem run_append (requests more : List Request) :
    run host s (requests ++ more) =
      run host s requests ++ run host (after host s requests) more := by
  induction requests generalizing s with
  | nil => rfl
  | cons q requests ih =>
    simp only [List.cons_append, run]
    rw [ih]
    rfl

/-- A hook stood at some point at which there was no screen to enforce: a failed installation left
it behind. -/
def Strayed (host : Host) (s : Session) (requests : List Request) : Prop :=
  ∃ earlier, earlier <+: requests ∧ (after host s earlier).process.state.screen = none ∧
    0 < (after host s earlier).process.hooks

theorem strayed_append_singleton {request : Request} :
    Strayed host s (requests ++ [request]) ↔ Strayed host s requests ∨
      (after host s (requests ++ [request])).process.state.screen = none ∧
        0 < (after host s (requests ++ [request])).process.hooks := by
  constructor
  · intro ⟨earlier, hearlier, hstray⟩
    rcases List.prefix_concat_iff.1 hearlier with rfl | hprefix
    · exact Or.inr hstray
    · exact Or.inl ⟨earlier, hprefix, hstray⟩
  · intro h
    rcases h with ⟨earlier, hprefix, hstray⟩ | hstray
    · exact ⟨earlier, hprefix.trans (List.prefix_append _ _), hstray⟩
    · exact ⟨_, List.prefix_refl _, hstray⟩

/-! ## Hooks -/

/-- One step keeps account of the hooks: `strayed` says whether one was left behind before it. -/
theorem hooks_pos_iff_of_advances {strayed : Prop} (hp : p.state.Orderly) (h : p.Advances q)
    (hhooks : 0 < p.hooks ↔ p.state.enforced = true ∨ strayed) :
    0 < q.hooks ↔ q.state.enforced = true ∨ strayed ∨
      q.state.screen = none ∧ 0 < q.hooks := by
  obtain ⟨e, offer, he, hsets⟩ | hkeeps := h
  · obtain ⟨screen, _, hstate⟩ := hsets.state
    have hfree := hp.vacant hsets.vacant
    have hadded := hsets.hooks
    cases e with
    | none =>
      simp only [Option.map_none, Option.getD_none, Nat.add_zero] at hadded
      simpa [hadded, hstate, hfree] using hhooks
    | some f =>
      have hhook : f.hooks = 1 := he f rfl (hsets.carried f rfl)
      simp only [Option.map_some, Option.getD_some, hhook] at hadded
      simp [hadded, hstate]
  · cases hscreen : p.state.screen with
    | none =>
      -- Without a screen every hook that there is counts as left behind.
      have hq : q.state.screen = none := hkeeps.screen.trans hscreen
      constructor
      · exact fun hpos => Or.inr (Or.inr ⟨hq, hpos⟩)
      · intro hcases
        rcases hcases with henforced | hstrayed | ⟨_, hpos⟩
        · rw [hkeeps.enforced] at henforced
          exact Nat.lt_of_lt_of_le (hhooks.2 (Or.inl henforced)) hkeeps.hooks
        · exact Nat.lt_of_lt_of_le (hhooks.2 (Or.inr hstrayed)) hkeeps.hooks
        · exact hpos
    | some held =>
      have hsame : q.hooks = p.hooks := hkeeps.held (by simp [hscreen])
      have hq : q.state.screen ≠ none := by simp [hkeeps.screen, hscreen]
      simpa [hsame, hkeeps.enforced, hq] using hhooks

/-! ## Whole sessions -/

def fresh (probes : Guard.Probes) (own shared : Configuration.Variables) : Session :=
  { probes := probes, own := own, shared := shared }

variable {probes : Guard.Probes} {own shared : Configuration.Variables}

theorem orderly_after (hs : s.process.state.Orderly) (h : ∀ q ∈ requests, q.ByBacking) :
    (after host s requests).process.state.Orderly := by
  induction requests generalizing s with
  | nil => exact hs
  | cons q requests ih =>
    exact ih (advances_handle hs (h q (by simp))).orderly fun q' hq' => h q' (by simp [hq'])

theorem hooks_pos_iff (h : ∀ q ∈ requests, q.ByBacking) :
    0 < (after host (fresh probes own shared) requests).process.hooks ↔
      (after host (fresh probes own shared) requests).process.state.enforced = true ∨
        Strayed host (fresh probes own shared) requests := by
  induction requests using List.reverseRecOn with
  | nil =>
    refine iff_of_false (Nat.lt_irrefl 0) fun hcases => ?_
    rcases hcases with henforced | ⟨earlier, hearlier, _, hpos⟩
    · exact Bool.false_ne_true henforced
    · obtain rfl := List.prefix_nil.1 hearlier
      exact Nat.lt_irrefl 0 hpos
  | append_singleton requests request ih =>
    have hrequests : ∀ q ∈ requests, q.ByBacking := fun q hq => h q (by simp [hq])
    have horderly : (after host (fresh probes own shared) requests).process.state.Orderly :=
      orderly_after State.Orderly.initial hrequests
    have hstep : Answered.Advances (after host (fresh probes own shared) requests)
        ((after host (fresh probes own shared) requests).handle host request) :=
      advances_handle horderly (h request (by simp))
    rw [strayed_append_singleton, after_append]
    exact hooks_pos_iff_of_advances horderly hstep (ih hrequests)

/-- Whatever the requests before it did, and however a reader came by its screen, it is refused
what that screen rejects, and what the screen of the process rejects if it is enforced or a hook was
left behind that never enforced one. -/
theorem mediates_after (host : Host) (probes : Guard.Probes) (own shared : Configuration.Variables)
    {requests : List Request} (h : ∀ q ∈ requests, q.ByBacking) (reader : Reader) :
    Mediates (after host (fresh probes own shared) requests).process host.catalog reader
      ((after host (fresh probes own shared) requests).process.Refuses
        ((after host (fresh probes own shared) requests).process.state.enforced = true ∨
          Strayed host (fresh probes own shared) requests) reader.screen) := by
  have hmediates := (after host (fresh probes own shared) requests).process.mediates
    host.catalog reader
  refine hmediates.congr fun r => ?_
  rw [Process.Refuses, Process.Refuses, hooks_pos_iff h]

/-! ## Two sessions -/

def evilHost : Host := ⟨true, .ok [], ⟨[("evil".toList, ["Exploit".toList])]⟩⟩

def exploit : Guard.Reference := ⟨"evil".toList, "Exploit".toList⟩

def rejectingEvil : Blueprint := .pattern (some "!evil.**".toList)

def openedEarly : List Request :=
  [.openReader "early".toList ⟨false, true, none⟩, .setScreen (.direct .hook) (some rejectingEvil)]

theorem mediates_after_openedEarly :
    ((⟨.own none, true, [], 0⟩ : Reader).find
        (after evilHost (fresh ⟨true, true⟩ .empty .empty) openedEarly).process
        evilHost.catalog exploit).2 = .error (.classRejected "evil.Exploit".toList) := by
  have hrequests : ∀ q ∈ openedEarly, q.ByBacking := by simp [openedEarly, Request.ByBacking]
  have hmediates := mediates_after evilHost ⟨true, true⟩ .empty .empty hrequests
    ⟨.own none, true, [], 0⟩
  refine (hmediates.rejects exploit).2 (Or.inr ⟨Or.inl ?_, ?_⟩)
  · decide +kernel
  · exact ⟨_, rfl, by decide +kernel⟩

/-- A registration fails when its hook is registered; then the screen is set without a hook. -/
def leftBehind : List Request :=
  [.setScreen (.direct (.failingHook true)) (some rejectingEvil),
    .setScreen (.direct .streams) (some rejectingEvil)]

/-- The hook that was left behind refuses a class although nothing is enforced. -/
theorem not_mediates_leftBehind :
    (∀ q ∈ leftBehind, q.ByBacking) ∧
      ¬ Mediates (after evilHost (fresh ⟨false, true⟩ .empty .empty) leftBehind).process
        evilHost.catalog ⟨.plain, true, [], 0⟩
        ((after evilHost (fresh ⟨false, true⟩ .empty .empty) leftBehind).process.Refuses
          ((after evilHost (fresh ⟨false, true⟩ .empty .empty)
            leftBehind).process.state.enforced = true) .plain) := by
  refine ⟨by simp [leftBehind, Request.ByBacking], fun hmediates => ?_⟩
  have hrefused := (hmediates.rejects exploit).1 (by decide +kernel)
  rcases hrefused with ⟨t, ht, _⟩ | ⟨henforced, _⟩
  · simp [Guard.ReaderScreen.screen?] at ht
  · exact absurd henforced (by decide +kernel)

end Gatekeeper.Session
