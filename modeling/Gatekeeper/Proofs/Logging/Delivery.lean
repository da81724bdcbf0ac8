import Gatekeeper.Proofs.Logging.History
import Gatekeeper.Proofs.Redaction.Composition

/-!
# What handlers print

A record is shared by the handlers that it reaches, and each filter on its way changes it for all
that come later. Main statement: after any installations of one settled redactor, a handler prints
the redacted message if the logger of the record, the handler itself or a handler before it was
covered by an installation, and else the message as it is (`printsRedacted_log`). How often the
record was filtered on its way does not matter.
-/

namespace Gatekeeper.Logging

open Redaction (Redactor IsPlain IsSafe Stands redactLine redactLine_redactLine)

variable {redactor : Redactor} {r : Record} {M : Text}

/-! ## One record -/

/-- Whether redacting a text again changes nothing. -/
def Settled (redactor : Redactor) : Prop :=
  match redactor.strategy with
  | .scanning => IsPlain redactor.token
  | .custom rule => ∀ t, rule (rule t) = rule t

theorem Settled.redact_redact (h : Settled redactor) (t : Text) :
    redactor.redact (redactor.redact t) = redactor.redact t := by
  obtain ⟨token, dictionary, strategy⟩ := redactor
  cases strategy with
  | custom rule => exact h t
  | scanning =>
    have hstands : Stands token := IsSafe.stands (Or.inl h)
    simp only [Redactor.redact, redactLine_redactLine hstands, Bool.or_self]

/-- The message that a record stands for: its text, or its template where the arguments do not fit
or a form is malformed. -/
def Record.Means (r : Record) (M : Text) : Prop :=
  r.text = .ok M ∨
    ((r.text = .error .argumentMismatch ∨ r.text = .error .malformedForm) ∧ M = r.message.display)

namespace Record

theorem text_ofText (t : Text) : (ofText t).text = .ok t := rfl

theorem redacted_of_means (h : r.Means M) :
    r.redacted redactor = .ok (.ofText (redactor.redact M)) := by
  rcases h with h | ⟨h | h, rfl⟩ <;> simp [redacted, textToRedact, h]

theorem redactedAll_of_means {filters : List Redactor} (hsettled : Settled redactor)
    (hfilters : ∀ f ∈ filters, f = redactor) (h : r.Means M) :
    r.redactedAll filters =
      .ok (if filters = [] then r else .ofText (redactor.redact M)) := by
  induction filters generalizing r M with
  | nil => rfl
  | cons f filters ih =>
    have hf : f = redactor := hfilters f (by simp)
    have hrest := ih (fun g hg => hfilters g (by simp [hg]))
      (Or.inl (text_ofText (redactor.redact M)))
    rw [redactedAll, hf, redacted_of_means h]
    simp only [hrest, hsettled.redact_redact, ite_self, reduceCtorEq, if_false]

end Record

/-! ## The way of a record -/

/-- The record as it is handed on: as it was made, or redacted by a filter on its way. -/
def carried (redactor : Redactor) (r : Record) (M : Text) (filtered : Bool) : Record :=
  if filtered then .ofText (redactor.redact M) else r

def shown (redactor : Redactor) (r : Record) (M : Text) (filtered : Bool) : Option Text :=
  if filtered then some (redactor.redact M) else r.text.toOption

theorem redactedAll_carried {filters : List Redactor} {marked : Bool}
    (hsettled : Settled redactor) (hfilters : Tree.Copies redactor marked filters)
    (h : r.Means M) (filtered : Bool) :
    (carried redactor r M filtered).redactedAll filters =
      .ok (carried redactor r M (filtered || marked)) := by
  obtain ⟨hall, hempty⟩ := hfilters
  have hmarked : filters = [] ↔ marked = false := by
    rw [← List.isEmpty_iff, hempty, Bool.not_eq_true']
  cases filtered with
  | false =>
    rw [carried, if_neg Bool.false_ne_true, Record.redactedAll_of_means hsettled hall h]
    cases marked <;> simp [hmarked, carried]
  | true =>
    have hagain : (Record.ofText (redactor.redact M)).Means (redactor.redact M) :=
      Or.inl (Record.text_ofText _)
    rw [carried, if_pos rfl, Record.redactedAll_of_means hsettled hall hagain,
      hsettled.redact_redact, ite_self]
    rfl

theorem print_carried (filtered : Bool) (handler : Nat) :
    (carried redactor r M filtered).print handler =
      (shown redactor r M filtered).map fun t => (handler, t ++ ['\n']) := by
  cases filtered with
  | true => rfl
  | false =>
    simp only [carried, shown, Record.print, Bool.false_eq_true, if_false]
    cases r.text <;> rfl

/-- What handlers print in turn: each the redacted message if the record was filtered when it was
made, or by the handlers it has reached so far. -/
def expectedOutput (redactor : Redactor) (r : Record) (M : Text) (filtered : Bool)
    (covered reached : List Nat) : Output where
  printed := reached.zipIdx.filterMap fun (handler, i) =>
    (shown redactor r M (filtered || (reached.take (i + 1)).any covered.contains)).map fun t =>
      (handler, t ++ ['\n'])
  result := .ok ()

namespace Tree

variable {tree : Tree} {covered : List Nat}

theorem emit_carried (hsettled : Settled redactor) (h : r.Means M)
    (hfilters : ∀ id, Copies redactor (covered.contains id) (tree.filtersOf id)) (filtered : Bool)
    (earlier later : List Nat) :
    tree.emit (carried redactor r M (filtered || earlier.any covered.contains)) later =
      ⟨(later.zipIdx earlier.length).filterMap fun (handler, i) =>
        (shown redactor r M
          (filtered || ((earlier ++ later).take (i + 1)).any covered.contains)).map fun t =>
            (handler, t ++ ['\n']), .ok ()⟩ := by
  induction later generalizing earlier with
  | nil => rfl
  | cons handler later ih =>
    -- What reaches the next handler is the record that this one leaves behind.
    have hstep : (filtered || earlier.any covered.contains || covered.contains handler) =
        (filtered || (earlier ++ [handler]).any covered.contains) := by
      rw [List.any_append, List.any_cons, List.any_nil, Bool.or_false, Bool.or_assoc]
    have htake : (earlier ++ handler :: later).take (earlier.length + 1) =
        earlier ++ [handler] := by
      rw [List.append_cons]
      exact List.take_left' (by simp)
    have hrest := ih (earlier ++ [handler])
    simp only [List.length_append, List.length_singleton, List.append_assoc,
      List.singleton_append] at hrest
    rw [emit, redactedAll_carried hsettled (hfilters handler) h, hstep]
    simp only [hrest, print_carried, Output.after, List.zipIdx_cons, List.filterMap_cons, htake]
    cases shown redactor r M (filtered || (earlier ++ [handler]).any covered.contains) <;> rfl

/-- Whether a record that is made after the actions is printed as their history says: redacted where
its logger or a handler that it has reached is covered. -/
def PrintsRedacted (redactor : Redactor) (start : Tree) (actions : List Action) (name : Text)
    (severity : Nat) (r : Record) (M : Text) : Prop :=
  ((start.after actions).perform (.log name severity r)).2 =
    expectedOutput redactor r M ((targets actions).contains name) (start.covered actions)
      (((start.after actions).add name).reached name)

/-- A covered handler prints the redacted message, and so does every handler behind the first filter
on the way; the others print the message as it is, or nothing. -/
theorem printsRedacted_log (hsettled : Settled redactor) {start : Tree} (hstart : start.Unfiltered)
    {actions : List Action} (hactions : ∀ a ∈ actions, a.Uses redactor) (name : Text)
    {severity : Nat} (hseverity : severity ≠ 0) (h : r.Means M) :
    PrintsRedacted redactor start actions name severity r M := by
  let tree := (start.after actions).add name
  have hlogger : Copies redactor ((targets actions).contains name) (tree.get name).filters := by
    rw [filters_add]
    exact copies_filters_after hactions hstart name
  have hhandlers : ∀ id,
      Copies redactor ((start.covered actions).contains id) (tree.filtersOf id) := by
    intro id
    rw [filtersOf_add]
    exact copies_filtersOf_after hactions hstart id
  have hmade : r.redactedAll (tree.get name).filters =
      .ok (carried redactor r M ((targets actions).contains name)) :=
    redactedAll_carried hsettled hlogger h false
  have hemit := tree.emit_carried hsettled h hhandlers ((targets actions).contains name) []
    (tree.reached name)
  rw [List.any_nil, Bool.or_false] at hemit
  simp only [PrintsRedacted, perform, hseverity, if_false, log]
  rw [hmade]
  exact hemit

theorem isPlain_redacted : IsPlain "redacted".toList :=
  ⟨by decide +kernel, List.all_eq_true.1 (by decide +kernel), by simp⟩

/-- The second handler is on two loggers, and covered on one of them. -/
def sharing : List Action :=
  [.addHandler [] 0, .addHandler "app".toList 1, .addHandler [] 1, .install "app".toList {}]

theorem printsRedacted_log_sharing :
    ((Tree.empty.after sharing).perform (.log "other".toList 20
        ⟨.text "--password=%s".toList, [.text "x".toList]⟩)).2.printed =
      [(0, "--password=x\n".toList), (1, "--password=redacted\n".toList)] := by
  have hsettled : Settled {} := isPlain_redacted
  have hactions : ∀ a ∈ sharing, a.Uses {} := by simp [sharing, Action.Uses]
  have hmeans : Record.Means ⟨.text "--password=%s".toList, [.text "x".toList]⟩
      "--password=x".toList := Or.inl (by decide +kernel)
  have hprints := printsRedacted_log hsettled unfiltered_empty hactions "other".toList
    (show 20 ≠ 0 by decide) hmeans
  exact (congrArg Output.printed hprints).trans (by decide +kernel)

/-- A redactor that does not leave alone what it has redacted. -/
def brackets : Redactor where
  strategy := .custom fun t => '<' :: (t ++ ['>'])

def bracketed : List Action := [.addHandler [] 0, .install [] brackets]

/-- A record that is made on a covered logger passes a filter there and another at the handler. -/
theorem not_printsRedacted_brackets :
    IsPlain brackets.token ∧ Tree.empty.Unfiltered ∧ (∀ a ∈ bracketed, a.Uses brackets) ∧
      (Record.ofText "hello".toList).Means "hello".toList ∧
      ¬ PrintsRedacted brackets .empty bracketed [] 20 (.ofText "hello".toList)
        "hello".toList := by
  refine ⟨isPlain_redacted, unfiltered_empty, by simp [bracketed, Action.Uses], Or.inl rfl,
    fun hprints => ?_⟩
  have hprinted := congrArg Output.printed hprints
  exact absurd hprinted (by decide +kernel)

end Tree

end Gatekeeper.Logging
