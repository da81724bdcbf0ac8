import Gatekeeper.Proofs.Redaction.Rewriting
import Gatekeeper.Proofs.Redaction.Stability

/-!
# Notices as lines

A redaction reports each option whose argument it hides, by the name that stands in the line. A
notice is logged, and so it may come to be redacted itself. Main statement: whatever the name, the
scan finds an argument behind the first word of a notice only (`scan_sentence`). So a notice is left
alone unless its first word is a sensitive option (`leavesAlone_message_iff`).
-/

namespace Gatekeeper.Redaction

variable {first second o t : Text} {words : List Text}

/-! ## Names of options -/

namespace IsOption

theorem isInk (h : IsOption o) : ∀ c ∈ o, isInk c = true :=
  fun c hc => isInk_of_isOptionChar (h.chars c hc)

theorem isPlain (h : IsOption o) : IsPlain o := by
  refine ⟨h.ne_nil, h.isInk, fun c hc => ?_⟩
  have hchar : isOptionChar c = true := h.chars c (List.mem_of_mem_head? hc)
  have hhyphen : isHyphen c = false := h.unhyphened c hc
  simp_all [isOptionChar, isHyphen]

theorem stands (h : IsOption o) : Stands o := IsSafe.stands (Or.inl h.isPlain)

theorem stops_isSpace_append (h : IsOption o) (rest : Text) : Stops Text.isSpace (o ++ rest) := by
  rw [stops_append_of_ne_nil h.ne_nil]
  exact h.stands.isArgument.stops_isSpace

end IsOption

theorem isOption_of_all {w : Text} (hne : w ≠ []) (hchars : w.all isOptionChar = true)
    (hunhyphened : Stops isHyphen w) : IsOption w :=
  ⟨hne, List.all_eq_true.1 hchars, hunhyphened⟩

theorem isOption_of_found {line : Text} {f : Found} (h : f ∈ findAll line) :
    IsOption f.pair.option :=
  (wellFormed_of_found h).option

/-! ## Sentences -/

/-- Words behind other text, each behind a blank of its own. -/
def wordsBehind (words : List Text) : List Piece := words.flatMap fun w => [.gap [' '], .word w]

def sentence (first second : Text) (words : List Text) : Text :=
  first ++ ' ' :: (second ++ flatten (wordsBehind words))

theorem sentence_append (first second : Text) (words : List Text) (w : Text) :
    sentence first second (words ++ [w]) = sentence first second words ++ ' ' :: w := by
  simp [sentence, wordsBehind, Piece.text]

theorem stops_isInk_wordsBehind (words : List Text) :
    Stops isInk (flatten (wordsBehind words)) := by
  cases words with
  | nil => exact stops_nil
  | cons w words => exact stops_cons.2 (by decide)

/-- Behind other text, a word without a marker is no pair. -/
theorem fits_word {rest : Text} (h : IsOption o) (hrest : Stops isInk rest) :
    (Piece.word o).Fits .boundary rest := by
  refine ⟨h.ne_nil, h.isInk, hrest, ?_⟩
  have hunmarked : Marker.read? o = none := Marker.read?_eq_none h.unhyphened
  simp [Place.pair?, Pair.read?, hunmarked]

theorem fitting_wordsBehind (h : ∀ w ∈ words, IsOption w) :
    Fitting .inside (wordsBehind words) := by
  induction words with
  | nil => trivial
  | cons w words ih =>
    have hw : IsOption w := h w (by simp)
    have hgap : (Piece.gap [' ']).Fits .inside (w ++ flatten (wordsBehind words)) :=
      ⟨by simp, by decide, hw.stops_isSpace_append _⟩
    exact ⟨hgap, fits_word hw (stops_isInk_wordsBehind words), ih fun u hu => h u (by simp [hu])⟩

/-- The second word of a sentence is taken for the argument of the first. -/
def firstPair (first second : Text) : Pair := ⟨.bare, first, some ⟨[' '], second⟩⟩

theorem text_firstPair (first second : Text) :
    (firstPair first second).text = first ++ ' ' :: second := by
  simp [firstPair, Pair.text, Marker.text, Binding.text]

theorem isHidden_firstPair (S : Text → Bool) (first second : Text) :
    (firstPair first second).isHidden S = S first := by
  simp [firstPair, Pair.isHidden]

theorem fits_firstPair {rest : Text} (hfirst : IsOption first) (hsecond : Stands second)
    (hrest : Stops isInk rest) : (Piece.pair (firstPair first second)).Fits .opening rest := by
  have hends : EndsArgument second rest := ⟨hrest, fun h => absurd h hsecond.not_isOpenQuote⟩
  refine ⟨⟨hfirst, ?_, by simp [firstPair]⟩, trivial, hends⟩
  intro b hb
  obtain rfl : ⟨[' '], second⟩ = b := Option.some.inj hb
  exact ⟨isAssignment_blank, hsecond.isArgument, fun _ => hsecond.unequal,
    fun _ => hsecond.unmarked⟩

theorem scan_sentence (hfirst : IsOption first) (hsecond : Stands second)
    (hwords : ∀ w ∈ words, IsOption w) :
    scan (sentence first second words) = .pair (firstPair first second) :: wordsBehind words := by
  refine scanFrom_eq_iff.2 ⟨?_, ?_, fitting_wordsBehind hwords⟩
  · simp [Piece.text, text_firstPair, sentence]
  · exact fits_firstPair hfirst hsecond (stops_isInk_wordsBehind words)

theorem flatMap_redacted_wordsBehind (S : Text → Bool) (token : Text) (words : List Text) :
    (wordsBehind words).flatMap (Piece.redacted S token) = flatten (wordsBehind words) := by
  induction words with
  | nil => rfl
  | cons w words ih => simpa [wordsBehind, Piece.redacted, Piece.text] using ih

theorem filterMap_hiddenOption?_wordsBehind (S : Text → Bool) (words : List Text) :
    (wordsBehind words).filterMap (Piece.hiddenOption? S) = [] := by
  induction words with
  | nil => rfl
  | cons w words ih => simpa [wordsBehind, Piece.hiddenOption?] using ih

theorem redactLine_sentence (hfirst : IsOption first) (hsecond : Stands second)
    (hwords : ∀ w ∈ words, IsOption w) (S : Text → Bool) (token : Text) :
    redactLine S token (sentence first second words) =
      sentence first (if S first then token else second) words := by
  have hpair : (Piece.pair (firstPair first second)).redacted S token =
      first ++ ' ' :: if S first then token else second := by
    rw [Piece.redacted, isHidden_firstPair]
    split
    · exact text_firstPair first token
    · exact text_firstPair first second
  rw [redactLine, scan_sentence hfirst hsecond hwords, List.flatMap_cons, hpair,
    flatMap_redacted_wordsBehind, sentence, List.append_assoc, List.cons_append]

theorem redactionNotices_sentence (hfirst : IsOption first) (hsecond : Stands second)
    (hwords : ∀ w ∈ words, IsOption w) (S : Text → Bool) :
    redactionNotices S (sentence first second words) =
      if S first then [.argumentRedacted first] else [] := by
  have hpair : (Piece.pair (firstPair first second)).hiddenOption? S =
      if S first then some first else none := by
    rw [Piece.hiddenOption?, isHidden_firstPair]
    rfl
  rw [redactionNotices, hiddenOptions, scan_sentence hfirst hsecond hwords, List.filterMap_cons,
    hpair, filterMap_hiddenOption?_wordsBehind]
  cases S first <;> rfl

/-! ## Notices -/

/-- What a redactor reports is about an option that was read in a line. -/
def IsReport (n : Notice) : Prop := ∃ o, IsOption o ∧ n = .argumentRedacted o

theorem isOption_redacting : IsOption "Redacting".toList :=
  isOption_of_all (by simp) (by decide +kernel) (by simp [isHyphen])

theorem stands_argument : Stands "argument".toList :=
  (isOption_of_all (by simp) (by decide +kernel) (by simp [isHyphen])).stands

theorem isOption_noticeWords (ho : IsOption o) :
    ∀ w ∈ ["of".toList, "option".toList, o], IsOption w := by
  intro w hw
  simp only [List.mem_cons, List.not_mem_nil, or_false] at hw
  rcases hw with rfl | rfl | rfl
  · exact isOption_of_all (by simp) (by decide +kernel) (by simp [isHyphen])
  · exact isOption_of_all (by simp) (by decide +kernel) (by simp [isHyphen])
  · exact ho

theorem message_argumentRedacted (o : Text) :
    (Notice.argumentRedacted o).message =
      sentence "Redacting".toList "argument".toList ["of".toList, "option".toList, o] := by
  have hstart : "Redacting argument of option ".toList =
      sentence "Redacting".toList "argument".toList ["of".toList, "option".toList] ++ [' '] := by
    decide +kernel
  calc (Notice.argumentRedacted o).message
      = "Redacting argument of option ".toList ++ o := rfl
    _ = sentence "Redacting".toList "argument".toList ["of".toList, "option".toList] ++
          ' ' :: o := by rw [hstart, List.append_assoc, List.singleton_append]
    _ = sentence "Redacting".toList "argument".toList ["of".toList, "option".toList, o] :=
        (sentence_append _ _ _ o).symm

theorem redactLine_message (ho : IsOption o) (S : Text → Bool) (token : Text) :
    redactLine S token (Notice.argumentRedacted o).message =
      sentence "Redacting".toList (if S "Redacting".toList then token else "argument".toList)
        ["of".toList, "option".toList, o] := by
  rw [message_argumentRedacted]
  exact redactLine_sentence isOption_redacting stands_argument (isOption_noticeWords ho) S token

theorem redactionNotices_message (ho : IsOption o) (S : Text → Bool) :
    redactionNotices S (Notice.argumentRedacted o).message =
      if S "Redacting".toList then [.argumentRedacted "Redacting".toList] else [] := by
  rw [message_argumentRedacted]
  exact redactionNotices_sentence isOption_redacting stands_argument (isOption_noticeWords ho) S

namespace Redactor

variable {r : Redactor}

theorem isReport_of_mem_notices {n : Notice} (h : n ∈ r.notices t) : IsReport n := by
  obtain ⟨token, dictionary, strategy⟩ := r
  cases strategy with
  | custom rule => exact absurd h List.not_mem_nil
  | scanning =>
    simp only [notices, redactionNotices_eq_map, List.mem_map] at h
    obtain ⟨f, hf, rfl⟩ := h
    exact ⟨f.pair.option, isOption_of_found (List.mem_filter.1 hf).1, rfl⟩

/-- Whether a redactor puts a text out as it is and reports nothing. -/
structure LeavesAlone (r : Redactor) (t : Text) : Prop where
  redact : r.redact t = t
  notices : r.notices t = []

theorem leavesAlone_message_iff (ho : IsOption o) (hscanning : r.strategy = .scanning) :
    r.LeavesAlone (Notice.argumentRedacted o).message ↔
      r.dictionary.isSensitive "Redacting".toList = false := by
  have hredact : ∀ t, r.redact t = redactLine r.dictionary.isSensitive r.token t := fun t => by
    rw [redact, hscanning]
  have hnotices : ∀ t, r.notices t = redactionNotices r.dictionary.isSensitive t := fun t => by
    rw [notices, hscanning]
  constructor
  · intro h
    by_contra hsensitive
    have hreported := h.notices
    rw [hnotices, redactionNotices_message ho, if_pos (by simpa using hsensitive)] at hreported
    exact List.cons_ne_nil _ _ hreported
  · intro hspared
    constructor
    · rw [hredact, redactLine_message ho, hspared, message_argumentRedacted]
      rfl
    · rw [hnotices, redactionNotices_message ho, hspared]
      rfl

/-- With the first word of a notice among its options, a redactor would report on its reports. -/
example :
    (⟨"***".toList, .parts ["Redacting".toList], .scanning⟩ : Redactor).notices
        (Notice.argumentRedacted "password".toList).message =
      [.argumentRedacted "Redacting".toList] := by
  decide +kernel

/-- A redactor of lines with the standard dictionary, whatever its token. -/
def IsStandard (r : Redactor) : Prop := r.dictionary = .standard ∧ r.strategy = .scanning

theorem IsStandard.leavesAlone (h : r.IsStandard) (ho : IsOption o) :
    r.LeavesAlone (Notice.argumentRedacted o).message := by
  obtain ⟨hdictionary, hscanning⟩ := h
  have hspared : Dictionary.standard.isSensitive "Redacting".toList = false := by decide +kernel
  exact (leavesAlone_message_iff ho hscanning).2 (hdictionary ▸ hspared)

end Redactor

end Gatekeeper.Redaction
