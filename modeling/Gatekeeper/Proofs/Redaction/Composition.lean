import Gatekeeper.Proofs.Redaction.Secrecy
import Mathlib.Data.List.Perm.Basic

/-!
# Redactions one after the other

A redacted line is cut into the pieces of the line it came from, with the token in the place of the
arguments that were hidden (`scan_redactLine`). A second redaction finds the same options there, so
redactions in turn hide what one redaction hides for all of them, in whatever order they are done.
-/

namespace Gatekeeper.Redaction

variable {token : Text} {place : Place} {S T : Text → Bool}

namespace Piece

def masked (S : Text → Bool) (token : Text) : Piece → Piece
  | .pair p => .pair (if p.isHidden S then p.withArgument token else p)
  | piece => piece

theorem text_masked (S : Text → Bool) (token : Text) (q : Piece) :
    (q.masked S token).text = q.redacted S token := by
  cases q with
  | gap g => rfl
  | word w => rfl
  | pair p =>
    simp only [masked, redacted, text]
    split <;> rfl

theorem redacted_masked (S T : Text → Bool) (token : Text) (q : Piece) :
    (q.masked S token).redacted T token = q.redacted (fun o => S o || T o) token := by
  cases q with
  | gap g => rfl
  | word w => rfl
  | pair p =>
    have hboth : p.isHidden (fun o => S o || T o) = (p.isHidden S || p.isHidden T) :=
      Bool.and_or_distrib_left ..
    by_cases hS : p.isHidden S = true
    · -- The argument is gone already; hiding the token behind the token changes nothing.
      simp only [masked, redacted, hS, hboth, if_true, Bool.true_or,
        Pair.withArgument_withArgument, ite_self]
    · simp [masked, redacted, hS, hboth]

end Piece

theorem flatten_map_masked (S : Text → Bool) (token : Text) (pieces : List Piece) :
    flatten (pieces.map (Piece.masked S token)) = pieces.flatMap (Piece.redacted S token) := by
  induction pieces with
  | nil => rfl
  | cons q pieces ih => simp [Piece.text_masked, ih]

theorem fitting_map_masked {before pieces : List Piece} (hw : Stands token)
    (h : Fitting place (before ++ pieces)) :
    Fitting place (before ++ pieces.map (Piece.masked S token)) := by
  -- From the back: a pair gives way to its masked form in front of pieces that are masked already.
  induction pieces generalizing before with
  | nil => simpa using h
  | cons q pieces ih =>
    have hrest : Fitting place (before ++ q :: pieces.map (Piece.masked S token)) := by
      have happend : Fitting place ((before ++ [q]) ++ pieces) := by simpa using h
      simpa using ih happend
    cases q with
    | gap g => exact hrest
    | word w => exact hrest
    | pair p =>
      by_cases hS : p.isHidden S = true
      · simpa [Piece.masked, hS] using fitting_withArgument hw hrest
      · simpa [Piece.masked, hS] using hrest

theorem scan_redactLine (hw : Stands token) (S : Text → Bool) (line : Text) :
    scan (redactLine S token line) = (scan line).map (Piece.masked S token) := by
  apply scanFrom_eq_iff.2
  refine ⟨flatten_map_masked S token (scan line), ?_⟩
  have hscan : Fitting .opening ([] ++ scan line) := fitting_scanFrom .opening line
  exact fitting_map_masked hw hscan

theorem redactLine_redactLine (hw : Stands token) (S T : Text → Bool) (line : Text) :
    redactLine T token (redactLine S token line) =
      redactLine (fun o => S o || T o) token line := by
  rw [redactLine, scan_redactLine hw, List.flatMap_map]
  simp only [Piece.redacted_masked]
  rfl

theorem redactLine_false (token line : Text) : redactLine (fun _ => false) token line = line := by
  have hsame : Piece.redacted (fun _ => false) token = Piece.text := by
    funext q
    cases q with
    | gap g => rfl
    | word w => rfl
    | pair p => simp [Piece.redacted, Piece.text, Pair.isHidden]
  rw [redactLine, hsame]
  exact flatten_scan line

/-- Redactions in turn hide what any of them hides. -/
theorem foldl_redactLine {α : Type} (hw : Stands token) (sensitive : α → Text → Bool)
    (dictionaries : List α) (line : Text) :
    dictionaries.foldl (fun t d => redactLine (sensitive d) token t) line =
      redactLine (fun o => dictionaries.any fun d => sensitive d o) token line := by
  induction dictionaries generalizing line with
  | nil => exact (redactLine_false token line).symm
  | cons d dictionaries ih =>
    rw [List.foldl_cons, ih, redactLine_redactLine hw]
    rfl

/-- The order in which they are done has no part in it. -/
theorem foldl_redactLine_of_perm {α : Type} (hw : Stands token) (sensitive : α → Text → Bool)
    {dictionaries order : List α} (horder : order.Perm dictionaries) (line : Text) :
    order.foldl (fun t d => redactLine (sensitive d) token t) line =
      redactLine (fun o => dictionaries.any fun d => sensitive d o) token line := by
  have hsame : ∀ o, (order.any fun d => sensitive d o) = dictionaries.any fun d => sensitive d o :=
    fun o => horder.any_eq
  rw [foldl_redactLine hw, funext hsame]

theorem foldl_redact_eq_combined (hw : Stands token) {dictionaries order : List Dictionary}
    (horder : order.Perm dictionaries) (line : Text) :
    order.foldl (fun t d => (⟨token, d, .scanning⟩ : Redactor).redact t) line =
      (⟨token, .combined dictionaries, .scanning⟩ : Redactor).redact line := by
  have hcombined : (Dictionary.combined dictionaries).isSensitive =
      fun o => dictionaries.any fun d => d.isSensitive o :=
    funext (Dictionary.isSensitive_combined dictionaries)
  calc order.foldl (fun t d => (⟨token, d, .scanning⟩ : Redactor).redact t) line
      = redactLine (fun o => dictionaries.any fun d => d.isSensitive o) token line :=
        foldl_redactLine_of_perm hw Dictionary.isSensitive horder line
    _ = redactLine (Dictionary.combined dictionaries).isSensitive token line := by
        rw [hcombined]

/-- A redaction after another is one redaction for both predicates. So a redaction is settled by
doing it once, two may change places, and any number of them do in turn what one does for all their
predicates, or for a dictionary that combines theirs. -/
theorem redactLine_composes (htoken : IsPlain token) (line : Text) :
    (∀ S T : Text → Bool, redactLine T token (redactLine S token line) =
        redactLine (fun o => S o || T o) token line) ∧
      (∀ S : Text → Bool, redactLine S token (redactLine S token line) =
        redactLine S token line) ∧
      (∀ S T : Text → Bool, redactLine T token (redactLine S token line) =
        redactLine S token (redactLine T token line)) ∧
      (∀ predicates order : List (Text → Bool), order.Perm predicates →
        order.foldl (fun t S => redactLine S token t) line =
          redactLine (fun o => predicates.any fun S => S o) token line) ∧
      ∀ dictionaries order : List Dictionary, order.Perm dictionaries →
        order.foldl (fun t d => (⟨token, d, .scanning⟩ : Redactor).redact t) line =
          (⟨token, .combined dictionaries, .scanning⟩ : Redactor).redact line := by
  have hw : Stands token := IsSafe.stands (Or.inl htoken)
  refine ⟨fun S T => redactLine_redactLine hw S T line, fun S => ?_, fun S T => ?_, ?_, ?_⟩
  · rw [redactLine_redactLine hw]
    simp only [Bool.or_self]
  · rw [redactLine_redactLine hw, redactLine_redactLine hw]
    simp only [Bool.or_comm]
  · exact fun predicates order horder => foldl_redactLine_of_perm hw (fun S => S) horder line
  · exact fun dictionaries order horder => foldl_redact_eq_combined hw horder line

theorem redactLine_composes_openQuote :
    IsPlain "***".toList ∧
      redactLine (fun o => o = "b".toList) "***".toList
          (redactLine (fun o => o = "a".toList) "***".toList
            "--a \"x --b=1\" --b = \"open --a 2".toList) =
        "--a *** --b = ***".toList := by
  have htoken : IsPlain "***".toList :=
    ⟨by decide +kernel, List.all_eq_true.1 (by decide +kernel), by simp⟩
  obtain ⟨hboth, _⟩ := redactLine_composes htoken "--a \"x --b=1\" --b = \"open --a 2".toList
  refine ⟨htoken, ?_⟩
  rw [hboth]
  decide +kernel

end Gatekeeper.Redaction
