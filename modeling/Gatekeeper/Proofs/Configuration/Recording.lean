import Gatekeeper.Proofs.Configuration.Fault
import Gatekeeper.Proofs.Configuration.Publication

/-!
# Outcomes of repeated attempts

One configuration is attempted any number of times. Between two attempts its site may change, and so
may what an attempt finds out. An attempt that changes something, that finds it there already or
that lacks a backing records an outcome; one that is refused or raises leaves the outcome as it is.
Main statement: a configuration has the outcome of its latest attempt that recorded one
(`recordsLatest_after`).
-/

namespace Gatekeeper.Configuration

open Guard (Backing Ends Origin Phase State attempt_eq_finish ends_finish)

/-- The surroundings of an attempt: the site as it is by then, and what there is to find out. -/
structure Occasion where
  circumstances : Circumstances
  site : Site := {}
  ordinary : circumstances.Ordinary
  orderly : site.process.state.Orderly

/-! ## Endings -/

namespace Plan

/-- What the plan is to bring about is there already. -/
def Finds (o : Occasion) : Plan → Prop
  | .nothing => False
  | .settings _ _ | .givenPattern _ => o.site.process.state.screen.isSome = true
  | .publication name _ => Text.isBlank? (o.site.bindings.get? name) = false

def Lacks (o : Occasion) : Plan → Prop
  | .settings _ _ | .givenPattern _ => o.circumstances.backing = .error .unsupported
  | .nothing | .publication _ _ => False

def Refused (o : Occasion) : Plan → Prop
  | .nothing => True
  | .settings _ _ | .givenPattern _ => False
  | .publication _ _ => o.circumstances.permitted = false

end Plan

inductive Ending
  | changed
  | found
  | unbacked
  | refused
  | raised
  deriving DecidableEq

namespace Ending

/-- The outcome that tells the ending. -/
def outcome : Ending → Phase
  | .changed => .set
  | .found => .alreadySet
  | .unbacked => .unsupported
  | .refused | .raised => .unset

def recorded : Ending → Bool
  | .changed | .found | .unbacked => true
  | .refused | .raised => false

theorem outcome_eq_unset_iff (e : Ending) : e.outcome = .unset ↔ e.recorded = false := by
  cases e <;> simp [outcome, recorded]

end Ending

variable {c : Configuration} {o : Occasion} {e : Ending} {calls : List Occasion}

def tried (c : Configuration) (o : Occasion) : Attempted := c.attempt o.circumstances o.site

def next (c : Configuration) (o : Occasion) : Configuration := (c.tried o).configuration

def after (c : Configuration) (calls : List Occasion) : Configuration := calls.foldl next c

/-- How an attempt ends, by its result and by what it meets with. -/
inductive ComesTo (c : Configuration) (o : Occasion) : Ending → Prop
  | changed (hresult : (c.tried o).reported.2 = .ok true) : ComesTo c o .changed
  | found (hresult : (c.tried o).reported.2 = .ok false) (hfinds : c.plan.Finds o)
      (hbacked : ¬ c.plan.Lacks o) (hpermitted : ¬ c.plan.Refused o) : ComesTo c o .found
  | unbacked (hresult : (c.tried o).reported.2 = .ok false) (hlacks : c.plan.Lacks o) :
      ComesTo c o .unbacked
  | refused (hresult : (c.tried o).reported.2 = .ok false) (hrefused : c.plan.Refused o) :
      ComesTo c o .refused
  | raised {fault : Fault} (hresult : (c.tried o).reported.2 = .error fault) : ComesTo c o .raised

def Records (c : Configuration) (o : Occasion) : Prop := ∃ e, c.ComesTo o e ∧ e.recorded = true

/-- Whatever the attempt ends in, the outcome tells it. -/
def Tells (c : Configuration) (o : Occasion) : Prop :=
  ∀ e, c.ComesTo o e → (c.next o).outcome = e.outcome

def Unrecorded : Configuration → List Occasion → Prop
  | _, [] => True
  | c, o :: calls => ¬ c.Records o ∧ (c.next o).Unrecorded calls

/-- Where the outcome comes from after a run of attempts. -/
structure RecordsLatest (c : Configuration) (calls : List Occasion) : Prop where
  ends : ∀ earlier o later, calls = earlier ++ o :: later → ∃! e, (c.after earlier).ComesTo o e
  latest : ∀ earlier o later e, calls = earlier ++ o :: later → (c.after earlier).ComesTo o e →
    e.recorded = true → ((c.after earlier).next o).Unrecorded later →
      (c.after calls).outcome = e.outcome
  unset : c.Unrecorded calls → (c.after calls).outcome = .unset
  tells : ∀ earlier o later, calls = earlier ++ o :: later →
    ((c.after earlier).Tells o ↔ (c.after earlier).Records o ∨ c.Unrecorded earlier)

/-! ## One attempt -/

theorem Plan.not_refused_of_lacks {plan : Plan} (h : plan.Lacks o) : ¬ plan.Refused o := by
  cases plan <;> simp_all [Lacks, Refused]

theorem ComesTo.unique {e' : Ending} (h : c.ComesTo o e) (h' : c.ComesTo o e') : e = e' := by
  cases h with
  | changed hresult => cases h' <;> simp_all
  | raised hresult => cases h' <;> simp_all
  | found hresult hfinds hbacked hpermitted => cases h' <;> simp_all
  | unbacked hresult hlacks =>
    have hpermitted := Plan.not_refused_of_lacks hlacks
    cases h' <;> simp_all
  | refused hresult hrefused =>
    have hbacked : ¬ c.plan.Lacks o := fun h => Plan.not_refused_of_lacks h hrefused
    cases h' <;> simp_all

/-- An attempt ends in one way and leaves its outcome behind, unless none is recorded for it. -/
structure Leaves (c : Configuration) (o : Occasion) (e : Ending) : Prop where
  comesTo : c.ComesTo o e
  outcome : (c.next o).outcome = if e.recorded then e.outcome else c.outcome

theorem exists_leaves_of_origin (origin : Origin) (outcome : Phase) (o : Occasion) :
    ∃ e, (⟨origin.plan, outcome⟩ : Configuration).Leaves o e := by
  obtain ⟨-, hreported, houtcome⟩ :=
    attempt_eq_finish origin outcome o.ordinary o.site.process o.site.bindings
  have hends : Ends _ o.site.process.begun _ :=
    ends_finish o.orderly.beginAttempt (.ofOrigin origin o.ordinary)
  have hbegun : o.site.process.begun.state.screen = o.site.process.state.screen :=
    State.screen_beginAttempt _
  have hfinds : origin.plan.Finds o ↔ o.site.process.begun.state.screen.isSome = true := by
    rw [hbegun]
    cases origin <;> rfl
  have hlacks : origin.plan.Lacks o ↔ o.circumstances.backing = .error .unsupported := by
    cases origin <;> rfl
  have hpermitted : ¬ origin.plan.Refused o := by cases origin <;> exact id
  have hbacked {backing : Backing} (h : o.circumstances.backing = .ok backing) :
      ¬ origin.plan.Lacks o := by simp [hlacks, h]
  -- From here on it matters only in which of the six ways the attempt was finished.
  generalize o.site.process.begun.finish (.ofOrigin origin o.ordinary) = done at *
  cases hends with
  | unsupported notices hbacking =>
    exact ⟨.unbacked, .unbacked (congrArg Prod.snd hreported) (hlacks.2 hbacking), houtcome⟩
  | failed notices => exact ⟨.raised, .raised (congrArg Prod.snd hreported), houtcome⟩
  | exited notices => exact ⟨.raised, .raised (congrArg Prod.snd hreported), houtcome⟩
  | alreadySet notices hbacking hmade hheld =>
    exact ⟨.found, .found (congrArg Prod.snd hreported) (hfinds.2 hheld) (hbacked hbacking)
      hpermitted, houtcome⟩
  | unenforced notices => exact ⟨.raised, .raised (congrArg Prod.snd hreported), houtcome⟩
  | set notices => exact ⟨.changed, .changed (congrArg Prod.snd hreported), houtcome⟩

theorem exists_leaves_of_publication (name pattern : Text) (outcome : Phase) (o : Occasion) :
    ∃ e, (⟨.publication name pattern, outcome⟩ : Configuration).Leaves o e := by
  have htried : (⟨.publication name pattern, outcome⟩ : Configuration).tried o =
      publish name pattern outcome o.circumstances.permitted o.site := rfl
  cases hpermitted : o.circumstances.permitted with
  | false =>
    rw [hpermitted] at htried
    exact ⟨.refused, .refused (by rw [htried]; rfl) hpermitted, by rw [next, htried]; rfl⟩
  | true =>
    rw [hpermitted] at htried
    cases hblank : Text.isBlank? (o.site.bindings.get? name) with
    | true =>
      rw [publish_of_vacant hblank] at htried
      exact ⟨.changed, .changed (by rw [htried]), by rw [next, htried]; rfl⟩
    | false =>
      rw [publish_of_present hblank] at htried
      exact ⟨.found, .found (by rw [htried]) hblank id (by simp [Plan.Refused, hpermitted]),
        by rw [next, htried]; rfl⟩

theorem exists_leaves (c : Configuration) (o : Occasion) : ∃ e, c.Leaves o e := by
  obtain ⟨plan, outcome⟩ := c
  cases plan with
  | nothing => exact ⟨.refused, .refused rfl trivial, rfl⟩
  | settings s supply => exact exists_leaves_of_origin (.settings s supply) outcome o
  | givenPattern pattern => exact exists_leaves_of_origin (.givenPattern pattern) outcome o
  | publication name pattern => exact exists_leaves_of_publication name pattern outcome o

theorem ComesTo.outcome_next (h : c.ComesTo o e) :
    (c.next o).outcome = if e.recorded then e.outcome else c.outcome := by
  obtain ⟨e', hleaves⟩ := exists_leaves c o
  obtain rfl := h.unique hleaves.comesTo
  exact hleaves.outcome

theorem outcome_next_of_not_records (h : ¬ c.Records o) : (c.next o).outcome = c.outcome := by
  obtain ⟨e, hleaves⟩ := exists_leaves c o
  have hunrecorded : ¬ e.recorded = true := fun hrecorded => h ⟨e, hleaves.comesTo, hrecorded⟩
  exact hleaves.outcome.trans (if_neg hunrecorded)

theorem Records.outcome_next_ne_unset (h : c.Records o) : (c.next o).outcome ≠ .unset := by
  obtain ⟨e, hends, hrecorded⟩ := h
  rw [hends.outcome_next, if_pos hrecorded]
  simp [Ending.outcome_eq_unset_iff, hrecorded]

theorem tells_iff (c : Configuration) (o : Occasion) :
    c.Tells o ↔ c.Records o ∨ c.outcome = .unset := by
  obtain ⟨e, hleaves⟩ := exists_leaves c o
  have htells : c.Tells o ↔ (c.next o).outcome = e.outcome :=
    ⟨fun h => h e hleaves.comesTo, fun h e' hends => hends.unique hleaves.comesTo ▸ h⟩
  have hrecords : c.Records o ↔ e.recorded = true :=
    ⟨fun ⟨e', hends, h⟩ => hends.unique hleaves.comesTo ▸ h, fun h => ⟨e, hleaves.comesTo, h⟩⟩
  rw [htells, hrecords, hleaves.outcome]
  cases hrecorded : e.recorded with
  | true => simp
  | false => simp [(Ending.outcome_eq_unset_iff e).2 hrecorded]

/-! ## Attempts one after the other -/

theorem after_append_cons (c : Configuration) (earlier : List Occasion) (o : Occasion)
    (later : List Occasion) :
    c.after (earlier ++ o :: later) = ((c.after earlier).next o).after later := by
  rw [after, List.foldl_append, List.foldl_cons]
  rfl

theorem outcome_after_of_unrecorded (h : c.Unrecorded calls) :
    (c.after calls).outcome = c.outcome := by
  induction calls generalizing c with
  | nil => rfl
  | cons o calls ih => exact (ih h.2).trans (outcome_next_of_not_records h.1)

/-- An outcome that was recorded is never taken back. -/
theorem outcome_after_ne_unset (h : c.outcome ≠ .unset) (calls : List Occasion) :
    (c.after calls).outcome ≠ .unset := by
  induction calls generalizing c with
  | nil => exact h
  | cons o calls ih =>
    refine ih (c := c.next o) ?_
    by_cases hrecords : c.Records o
    · exact hrecords.outcome_next_ne_unset
    · rwa [outcome_next_of_not_records hrecords]

theorem outcome_after_eq_unset_iff (h : c.outcome = .unset) :
    (c.after calls).outcome = .unset ↔ c.Unrecorded calls := by
  induction calls generalizing c with
  | nil => exact iff_of_true h trivial
  | cons o calls ih =>
    by_cases hrecords : c.Records o
    · have hset : ((c.next o).after calls).outcome ≠ .unset :=
        outcome_after_ne_unset hrecords.outcome_next_ne_unset calls
      exact iff_of_false hset fun hunrecorded => hunrecorded.1 hrecords
    · have hrest := ih ((outcome_next_of_not_records hrecords).trans h)
      exact hrest.trans ⟨fun hunrecorded => ⟨hrecords, hunrecorded⟩, And.right⟩

/-- A configuration has the outcome of its latest attempt that recorded one. So an attempt that is
refused or raises is told of by the outcome only as long as no earlier one recorded its own. -/
theorem recordsLatest_after (plan : Plan) (calls : List Occasion) :
    ({ plan } : Configuration).RecordsLatest calls where
  ends := by
    intro earlier o later _
    obtain ⟨e, hleaves⟩ := exists_leaves (({ plan } : Configuration).after earlier) o
    exact ⟨e, hleaves.comesTo, fun e' hends => hends.unique hleaves.comesTo⟩
  latest := by
    rintro earlier o later e rfl hends hrecorded hlater
    rw [after_append_cons, outcome_after_of_unrecorded hlater]
    exact hends.outcome_next.trans (if_pos hrecorded)
  unset := outcome_after_of_unrecorded
  tells := by
    intro earlier o later _
    rw [tells_iff, outcome_after_eq_unset_iff rfl]

def standard : Configuration where
  plan := .settings .standard .discovered

/-- A contributor whose list raises. It is not asked where there is no backing. -/
def invalidLists : Contributor := ⟨"ListService".toList, .error .invalidValue⟩

def withoutBacking : Occasion where
  circumstances := ⟨.error .unsupported, .ok [invalidLists], true⟩
  ordinary := ⟨by simp, by simp⟩
  orderly := .initial

def withStreams : Occasion where
  circumstances := ⟨.ok .streams, .ok [invalidLists], true⟩
  site := (standard.tried withoutBacking).site
  ordinary := ⟨by simp, by simp⟩
  orderly := ⟨by decide, by decide, by decide⟩

/-- The second attempt raises, but the outcome still says that there is no backing. -/
theorem not_tells_withStreams : ¬ (standard.after [withoutBacking]).Tells withStreams := by
  intro htells
  have hraised : ((standard.after [withoutBacking]).tried withStreams).reported.2 =
      .error (.acceptList .invalidValue) := rfl
  have hunset : ((standard.after [withoutBacking]).next withStreams).outcome = .unset :=
    htells .raised (.raised hraised)
  exact absurd hunset (by decide)

end Gatekeeper.Configuration
