import Gatekeeper.Configuration.Basic
import Mathlib.Logic.Function.Basic

/-!
# Publishing patterns

Any number of configurations publish patterns in the variables of one site, and are called in any
order. Main statement: a variable that holds more than blanks is left alone; any other one comes to
hold the pattern of the first call for it that was permitted, and no other call says that it changed
anything (`publishedOnce_after`).
-/

namespace Gatekeeper

open Guard (Phase)

namespace Screening

/-! ## Patterns are not blank -/

theorem isBlank_joinClause {clause : Text} (h : Text.isBlank clause = false)
    (delimiter text : Text) : Text.isBlank (joinClause delimiter text clause) = false := by
  rw [Text.isBlank] at h
  unfold joinClause
  split <;> simp [Text.isBlank, h]

theorem Joiner.isBlank_append {clause : Text} (h : Text.isBlank clause = false) (j : Joiner) :
    Text.isBlank (j.append (some clause)).text = false := by
  simpa [append, h] using isBlank_joinClause h j.delimiter j.text

/-- However a pattern came about, the clause that closes it stands in it. -/
theorem PatternSource.isBlank_text (source : PatternSource) :
    Text.isBlank source.text = false := by
  have hlast : Text.isBlank rejectAll = false := by decide
  cases source with
  | management => exact Joiner.isBlank_append hlast _
  | sanctioned clauses => exact Joiner.isBlank_append hlast _

end Screening

namespace Configuration

section Publish

variable {name pattern : Text} {outcome : Phase} {site : Site}

theorem publish_of_vacant (h : Text.isBlank? (site.bindings.get? name) = true) :
    publish name pattern outcome true site =
      ⟨⟨site.process, site.bindings.put name pattern⟩, ⟨.publication name pattern, .set⟩,
        ([.propertyConfigured name pattern], .ok true)⟩ := by
  simp [publish, h]

theorem publish_of_present (h : Text.isBlank? (site.bindings.get? name) = false) :
    publish name pattern outcome true site =
      ⟨site, ⟨.publication name pattern, .alreadySet⟩,
        ([.propertyAlreadyConfigured name], .ok false)⟩ := by
  simp [publish, h]

end Publish

/-! ## Publications -/

variable {n : Nat}

/-- A call of one of several publications. Clauses may have been appended to its pattern since the
call before. -/
structure Publishing (n : Nat) where
  number : Fin n
  pattern : Text
  circumstances : Circumstances
  present : Text.isBlank pattern = false

/-- Publications at one site, each for a variable and with the outcome of its last call. -/
structure Board (n : Nat) where
  site : Site
  variableOf : Fin n → Text
  outcomes : Fin n → Phase := fun _ => .unset

def Publishing.permitted (c : Publishing n) : Bool := c.circumstances.permitted

namespace Board

variable {b : Board n} {c : Publishing n} {calls earlier : List (Publishing n)} {name : Text}

def value? (b : Board n) (name : Text) : Option Text := b.site.bindings.get? name

def target (b : Board n) (c : Publishing n) : Text := b.variableOf c.number

def attempted (b : Board n) (c : Publishing n) : Attempted :=
  (⟨.publication (b.target c) c.pattern, b.outcomes c.number⟩ : Configuration).attempt
    c.circumstances b.site

def call (b : Board n) (c : Publishing n) : Board n where
  site := (b.attempted c).site
  variableOf := b.variableOf
  outcomes := Function.update b.outcomes c.number (b.attempted c).configuration.outcome

def after (b : Board n) (calls : List (Publishing n)) : Board n := calls.foldl call b

/-- The first call behind the earlier ones that is permitted and for a variable which was missing
or blank. -/
structure IsFirst (b : Board n) (earlier : List (Publishing n)) (c : Publishing n) : Prop where
  permitted : c.permitted = true
  vacant : Text.isBlank? (b.value? (b.target c)) = true
  first : ∀ d ∈ earlier, b.target d = b.target c → d.permitted = false

/-- What the variables hold after calls, and what each call said of itself. -/
structure PublishedOnce (b : Board n) (calls : List (Publishing n)) : Prop where
  kept : ∀ name, Text.isBlank? (b.value? name) = false → (b.after calls).value? name = b.value? name
  published : ∀ earlier c later, calls = earlier ++ c :: later → b.IsFirst earlier c →
    (b.after calls).value? (b.target c) = some c.pattern
  /-- Among them are all variables that no call is for. -/
  unpublished : ∀ name, (∀ c ∈ calls, b.target c = name → c.permitted = false) →
    (b.after calls).value? name = b.value? name
  process : (b.after calls).site.process = b.site.process
  answers : ∀ earlier c later, calls = earlier ++ c :: later →
    (((b.after earlier).attempted c).reported.2 = .ok true ↔ b.IsFirst earlier c) ∧
    (((b.after earlier).attempted c).reported.2 = .ok false ↔ ¬ b.IsFirst earlier c)
  atMostOnce : ∀ earlier c between d later, calls = earlier ++ c :: (between ++ d :: later) →
    b.target c = b.target d → ((b.after earlier).attempted c).reported.2 = .ok true →
      ((b.after (earlier ++ c :: between)).attempted d).reported.2 = .ok false

/-! ## One call -/

theorem attempted_eq (b : Board n) (c : Publishing n) :
    b.attempted c = publish (b.target c) c.pattern (b.outcomes c.number) c.permitted b.site := rfl

/-- A call that changes anything changes its own variable only, and says so. -/
theorem site_reported_attempted (b : Board n) (c : Publishing n) :
    let changes := c.permitted && Text.isBlank? (b.value? (b.target c))
    (b.attempted c).site =
        (if changes then ⟨b.site.process, b.site.bindings.put (b.target c) c.pattern⟩
        else b.site) ∧
      (b.attempted c).reported.2 = .ok changes := by
  rw [attempted_eq]
  cases c.permitted with
  | false => exact ⟨rfl, rfl⟩
  | true =>
    cases hblank : Text.isBlank? (b.value? (b.target c)) with
    | true =>
      rw [publish_of_vacant hblank]
      exact ⟨rfl, rfl⟩
    | false =>
      rw [publish_of_present hblank]
      exact ⟨rfl, rfl⟩

theorem reported_attempted (b : Board n) (c : Publishing n) :
    (b.attempted c).reported.2 =
      .ok (c.permitted && Text.isBlank? (b.value? (b.target c))) :=
  (b.site_reported_attempted c).2

theorem site_call (b : Board n) (c : Publishing n) :
    (b.call c).site =
      if c.permitted && Text.isBlank? (b.value? (b.target c)) then
        ⟨b.site.process, b.site.bindings.put (b.target c) c.pattern⟩ else b.site :=
  (b.site_reported_attempted c).1

theorem process_call (b : Board n) (c : Publishing n) :
    (b.call c).site.process = b.site.process := by
  rw [site_call]
  split <;> rfl

theorem value?_call (b : Board n) (c : Publishing n) (name : Text) :
    (b.call c).value? name =
      if b.target c = name ∧ c.permitted = true ∧ Text.isBlank? (b.value? name) = true then
        some c.pattern else b.value? name := by
  rw [value?, site_call]
  by_cases hname : b.target c = name
  · subst hname
    simp only [true_and, Bool.and_eq_true]
    split
    · exact Table.get?_put_self _ _ _
    · rfl
  · have hother : ¬ (b.target c = name ∧ c.permitted = true ∧
        Text.isBlank? (b.value? name) = true) := fun h => hname h.1
    rw [if_neg hother]
    split
    · exact Table.get?_put_of_ne _ (Ne.symm hname) _
    · rfl

/-- A call fills a variable for good, since its pattern is not blank. -/
theorem isBlank?_call (b : Board n) (c : Publishing n) (name : Text) :
    Text.isBlank? ((b.call c).value? name) = true ↔
      Text.isBlank? (b.value? name) = true ∧ (b.target c = name → c.permitted = false) := by
  rw [value?_call]
  split
  · next h =>
    obtain ⟨hname, hpermitted, -⟩ := h
    simp [Text.isBlank?, c.present, hname, hpermitted]
  · next h =>
    refine ⟨fun hblank => ⟨hblank, fun hname => ?_⟩, And.left⟩
    exact Bool.eq_false_iff.2 fun hpermitted => h ⟨hname, hpermitted, hblank⟩

/-! ## Calls one after the other -/

theorem after_append (b : Board n) (earlier later : List (Publishing n)) :
    b.after (earlier ++ later) = (b.after earlier).after later :=
  List.foldl_append

theorem target_after (b : Board n) (calls : List (Publishing n)) (c : Publishing n) :
    (b.after calls).target c = b.target c := by
  induction calls generalizing b with
  | nil => rfl
  | cons d calls ih => exact ih (b.call d)

theorem process_after (b : Board n) (calls : List (Publishing n)) :
    (b.after calls).site.process = b.site.process := by
  induction calls generalizing b with
  | nil => rfl
  | cons c calls ih => exact (ih (b.call c)).trans (b.process_call c)

theorem isBlank?_after (b : Board n) (calls : List (Publishing n)) (name : Text) :
    Text.isBlank? ((b.after calls).value? name) = true ↔
      Text.isBlank? (b.value? name) = true ∧
        ∀ c ∈ calls, b.target c = name → c.permitted = false := by
  induction calls generalizing b with
  | nil => simp [after]
  | cons c calls ih =>
    have hrest := ih (b.call c)
    rw [isBlank?_call] at hrest
    rw [List.forall_mem_cons, ← and_assoc]
    exact hrest

theorem value?_after_of_present (h : Text.isBlank? (b.value? name) = false)
    (calls : List (Publishing n)) : (b.after calls).value? name = b.value? name := by
  induction calls generalizing b with
  | nil => rfl
  | cons c calls ih =>
    have hcall : (b.call c).value? name = b.value? name := by simp [value?_call, h]
    exact (ih (hcall ▸ h)).trans hcall

theorem value?_after_of_unpublished
    (h : ∀ c ∈ calls, b.target c = name → c.permitted = false) :
    (b.after calls).value? name = b.value? name := by
  induction calls generalizing b with
  | nil => rfl
  | cons c calls ih =>
    rw [List.forall_mem_cons] at h
    have hcall : (b.call c).value? name = b.value? name := by
      rw [value?_call, if_neg]
      rintro ⟨hname, hpermitted, -⟩
      simp [h.1 hname] at hpermitted
    have hrest : ((b.call c).after calls).value? name = (b.call c).value? name := ih h.2
    exact hrest.trans hcall

theorem value?_after_of_isFirst (h : b.IsFirst earlier c) (later : List (Publishing n)) :
    (b.after (earlier ++ c :: later)).value? (b.target c) = some c.pattern := by
  have hearlier : (b.after earlier).value? (b.target c) = b.value? (b.target c) :=
    value?_after_of_unpublished h.first
  have hcall : ((b.after earlier).call c).value? (b.target c) = some c.pattern := by
    rw [value?_call, if_pos ⟨target_after b earlier c, h.permitted, hearlier ▸ h.vacant⟩]
  have hpresent : Text.isBlank? (((b.after earlier).call c).value? (b.target c)) = false := by
    simp [hcall, Text.isBlank?, c.present]
  rw [after_append]
  exact (value?_after_of_present hpresent later).trans hcall

theorem isFirst_iff : b.IsFirst earlier c ↔
    (c.permitted && Text.isBlank? ((b.after earlier).value? (b.target c))) = true := by
  rw [Bool.and_eq_true, isBlank?_after]
  exact ⟨fun h => ⟨h.permitted, h.vacant, h.first⟩, fun h => ⟨h.1, h.2.1, h.2.2⟩⟩

theorem reported_after (b : Board n) (earlier : List (Publishing n)) (c : Publishing n) :
    (((b.after earlier).attempted c).reported.2 = .ok true ↔ b.IsFirst earlier c) ∧
      (((b.after earlier).attempted c).reported.2 = .ok false ↔ ¬ b.IsFirst earlier c) := by
  rw [reported_attempted, target_after, isFirst_iff]
  simp

theorem IsFirst.not_isFirst (h : b.IsFirst earlier c) {d : Publishing n}
    (hsame : b.target c = b.target d) (between : List (Publishing n)) :
    ¬ b.IsFirst (earlier ++ c :: between) d := by
  intro hd
  have hc := hd.first c (by simp) hsame
  simp [h.permitted] at hc

/-- Whichever publications are called, and in whatever order: each variable is published once at
most. The patterns that the library brings along are not blank, so that each of them can be
published. -/
theorem publishedOnce_after (b : Board n) (calls : List (Publishing n)) :
    b.PublishedOnce calls ∧
      ∀ source : Screening.PatternSource, Text.isBlank source.text = false := by
  refine ⟨?_, Screening.PatternSource.isBlank_text⟩
  exact {
    kept := fun _ h => value?_after_of_present h calls
    published := by
      rintro earlier c later rfl h
      exact value?_after_of_isFirst h later
    unpublished := fun _ h => value?_after_of_unpublished h
    process := process_after b calls
    answers := fun earlier c _ _ => reported_after b earlier c
    atMostOnce := by
      intro earlier c between d later _ hsame hanswer
      have hc : b.IsFirst earlier c := (reported_after b earlier c).1.1 hanswer
      exact (reported_after b _ d).2.2 (hc.not_isFirst hsame between) }

end Board

end Configuration
end Gatekeeper
