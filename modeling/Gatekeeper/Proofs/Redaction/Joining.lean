import Gatekeeper.Proofs.Redaction.CommandLine
import Gatekeeper.Proofs.Redaction.Grammar

/-!
# Lines joined by blanks

A list of lines is redacted as the one line it makes, or line by line. Main statement: both give the
same where each further line starts with a marked option and no line but the last leaves a quote
open (`redactSubject_lines`). What a line ends in, an option that waits for its argument included,
then finds nothing in the next one that it could take.
-/

namespace Gatekeeper.Redaction

variable {u v rest : Text} {p : Pair} {place : Place} {pieces next : List Piece}

/-! ## What is read in front of another line -/

theorem stops_isInk_blank (v : Text) : Stops isInk (' ' :: v) := stops_cons.2 (by decide)

theorem stops_of_startsPair {q : Char → Bool} (h : startsPair v = true) (hq : q '-' = false) :
    Stops q v := by
  obtain ⟨k, rfl⟩ := List.head?_eq_some_iff.1 (head?_of_startsPair h)
  exact stops_cons.2 hq

/-- An assignment that is read over the end of a line stops at the blank behind it, and one that is
read within the line is read there alone. -/
theorem readAssignment?_append_line {a r : Text} (hv : startsPair v = true)
    (h : readAssignment? (u ++ ' ' :: v) = some (a, r)) :
    (∃ k, k ≠ [] ∧ r = k ++ ' ' :: v ∧ readAssignment? u = some (a, k)) ∨
      (a = u ++ [' '] ∧ r = v) := by
  obtain ⟨htext, hassign, hpad, hequals⟩ := readAssignment?_eq_some_iff.1 h
  rcases List.append_eq_append_iff.1 htext with ⟨k, rfl, hk⟩ | ⟨k, rfl, rfl⟩
  · rcases k with _ | ⟨c, _ | ⟨d, k⟩⟩
    · rw [List.nil_append] at hk
      rw [← hk] at hpad
      exact absurd (stops_cons.1 hpad) (by decide)
    · obtain ⟨rfl, rfl⟩ := List.cons.inj hk
      exact Or.inr ⟨rfl, rfl⟩
    · -- The hyphen that the next line starts with is no part of an assignment.
      obtain ⟨rfl, rfl⟩ := List.cons.inj hk
      have hd : d = '-' := by simpa using head?_of_startsPair hv
      exact absurd (by simp [hd]) hassign.hyphen_not_mem
  · have hk : k ≠ [] := by
      rintro rfl
      exact absurd (stops_cons.1 hpad) (by decide)
    rw [stops_append_of_ne_nil hk] at hpad
    rw [List.head?_append_of_ne_nil _ hk] at hequals
    exact Or.inl ⟨k, hk, rfl, readAssignment?_eq_some_iff.2 ⟨rfl, hassign, hpad, hequals⟩⟩

/-- An option that stands alone at the end of a line finds no argument in a line that starts with a
pair. -/
theorem Binding.read?_append_line (h : Binding.read? u = none) (hv : startsPair v = true) :
    Binding.read? (u ++ ' ' :: v) = none := by
  rw [read?_eq_none_iff] at h ⊢
  intro a r har
  rcases readAssignment?_append_line hv har with ⟨k, hk, rfl, hread⟩ | ⟨rfl, rfl⟩
  · rw [stops_append_of_ne_nil hk, startsPair_append (stops_isInk_blank v)]
    exact h a k hread
  · exact Or.inr ⟨by simp, hv⟩

theorem Pair.Ends.append_line (h : p.Ends rest) (hclosed : ¬ p.IsOpen) (hv : startsPair v = true) :
    p.Ends (rest ++ ' ' :: v) := by
  obtain ⟨marker, option, binding⟩ := p
  cases binding with
  | none =>
    have hstop : Stops isOptionChar (' ' :: v) :=
      (stops_isInk_blank v).mono fun _ => isInk_of_isOptionChar
    exact ⟨(stops_append_iff hstop).2 h.1, Binding.read?_append_line h.2 hv⟩
  | some b =>
    have hstop : Stops isInk (rest ++ ' ' :: v) := (stops_append_iff (stops_isInk_blank v)).2 h.1
    exact ⟨hstop, fun hopen => absurd ⟨b, rfl, hopen⟩ hclosed⟩

/-- A pair that may stand first in a line may stand behind whitespace if it has a marker. -/
theorem Fitting.boundary (h : Fitting .opening next) (hstart : startsPair (flatten next) = true) :
    Fitting .boundary next := by
  cases next with
  | nil => trivial
  | cons q next =>
    obtain ⟨hfits, hnext⟩ := h
    rw [flatten_cons] at hstart
    cases q with
    | gap g =>
      obtain ⟨c, g, rfl⟩ := List.exists_cons_of_ne_nil hfits.1
      have hspace : Text.isSpace c = true := List.all_eq_true.1 hfits.2.1 c (by simp)
      have hstop : Stops Text.isSpace (c :: g ++ flatten next) :=
        stops_of_startsPair hstart (by decide)
      simp [hspace] at hstop
    | word w =>
      obtain ⟨-, -, hstop, hnone⟩ := hfits
      rw [Piece.text, startsPair_append hstop, (Pair.read?_eq_none_iff.1 hnone).1] at hstart
      exact absurd hstart Bool.false_ne_true
    | pair p =>
      have hmarked := (Pair.startsPair_text hfits.1 hfits.2.2).1 hstart
      exact ⟨⟨hfits.1, hmarked, hfits.2.2⟩, hnext⟩

theorem Piece.Fits.append_line {q : Piece} (h : q.Fits place rest)
    (hclosed : ∀ p, q = .pair p → ¬ p.IsOpen) (hgap : ∀ g, q = .gap g → rest ≠ [])
    (hv : startsPair v = true) : q.Fits place (rest ++ ' ' :: v) := by
  cases q with
  | gap g => exact ⟨h.1, h.2.1, (stops_append_of_ne_nil (hgap g rfl)).2 h.2.2⟩
  | word w =>
    obtain ⟨hne, hink, hstop, hnone⟩ := h
    exact ⟨hne, hink, (stops_append_iff (stops_isInk_blank v)).2 hstop, hnone⟩
  | pair p => exact ⟨h.1, h.2.1, h.2.2.append_line (hclosed p rfl) hv⟩

/-! ## The cutting of two lines in one -/

/-- Pieces with one more blank behind them, as part of the gap at their end if there is one. -/
def spaced : List Piece → List Piece
  | [] => [.gap [' ']]
  | [.gap g] => [.gap (g ++ [' '])]
  | q :: pieces => q :: spaced pieces

@[simp] theorem flatten_spaced (pieces : List Piece) :
    flatten (spaced pieces) = flatten pieces ++ [' '] := by
  fun_induction spaced pieces with
  | case1 => rfl
  | case2 g => simp [Piece.text]
  | case3 q pieces _ ih => simp [ih]

theorem flatMap_redacted_spaced (S : Text → Bool) (token : Text) (pieces : List Piece) :
    (spaced pieces).flatMap (Piece.redacted S token) =
      pieces.flatMap (Piece.redacted S token) ++ [' '] := by
  fun_induction spaced pieces with
  | case1 => rfl
  | case2 g => simp [Piece.redacted, Piece.text]
  | case3 q pieces _ ih => simp [ih]

theorem filterMap_hiddenOption?_spaced (S : Text → Bool) (pieces : List Piece) :
    (spaced pieces).filterMap (Piece.hiddenOption? S) =
      pieces.filterMap (Piece.hiddenOption? S) := by
  fun_induction spaced pieces with
  | case1 => rfl
  | case2 g => rfl
  | case3 q pieces _ ih => simp [List.filterMap_cons, ih]

theorem fitting_spaced (h : Fitting place pieces)
    (hclosed : ∀ p, Piece.pair p ∈ pieces → ¬ p.IsOpen) (hnext : Fitting .opening next)
    (hstart : startsPair (flatten next) = true) : Fitting place (spaced pieces ++ next) := by
  have hbehind : ∀ place : Place, Fitting place.afterGap next := by
    intro place
    cases place with
    | opening => exact hnext
    | boundary => exact hnext.boundary hstart
    | inside => exact hnext.boundary hstart
  have hspace : Stops Text.isSpace (flatten next) := stops_of_startsPair hstart (by decide)
  fun_induction spaced pieces generalizing place with
  | case1 => exact ⟨⟨by simp, by decide, hspace⟩, hbehind place⟩
  | case2 g =>
    obtain ⟨⟨-, hblank, -⟩, -⟩ := h
    have hlonger : Text.isBlank (g ++ [' ']) = true := by
      rw [Text.isBlank, List.all_append, ← Text.isBlank, hblank]
      decide
    exact ⟨⟨by simp, hlonger, hspace⟩, hbehind place⟩
  | case3 q pieces hlast ih =>
    obtain ⟨hfits, hrest⟩ := h
    have hgap : ∀ g, q = .gap g → flatten pieces ≠ [] := by
      intro g hg
      cases pieces with
      | nil => exact absurd rfl (hlast g hg)
      | cons q' pieces => simp [hrest.1.text_ne_nil]
    have hq := hfits.append_line (fun p hp => hclosed p (by simp [hp])) hgap hstart
    exact ⟨by simpa using hq, ih hrest fun p hp => hclosed p (by simp [hp])⟩

theorem scan_append_line (hclosed : ∀ f ∈ findAll u, ¬ f.pair.IsOpen) (hv : startsPair v = true) :
    scan (u ++ ' ' :: v) = spaced (scan u) ++ scan v := by
  have hpairs : ∀ p, Piece.pair p ∈ scan u → ¬ p.IsOpen := by
    intro p hp
    obtain ⟨before, after, hscan⟩ := List.append_of_mem hp
    exact hclosed _ (mem_findAll_of_scan hscan)
  have hstart : startsPair (flatten (scan v)) = true := by rwa [flatten_scan]
  refine scanFrom_eq_iff.2 ⟨by simp [flatten_scan], ?_⟩
  exact fitting_spaced (fitting_scanFrom .opening u) hpairs (fitting_scanFrom .opening v) hstart

theorem redactLine_append_line (hclosed : ∀ f ∈ findAll u, ¬ f.pair.IsOpen)
    (hv : startsPair v = true) (S : Text → Bool) (token : Text) :
    redactLine S token (u ++ ' ' :: v) = redactLine S token u ++ ' ' :: redactLine S token v := by
  rw [redactLine, scan_append_line hclosed hv, List.flatMap_append, flatMap_redacted_spaced,
    List.append_assoc]
  rfl

theorem redactionNotices_append_line (hclosed : ∀ f ∈ findAll u, ¬ f.pair.IsOpen)
    (hv : startsPair v = true) (S : Text → Bool) :
    redactionNotices S (u ++ ' ' :: v) = redactionNotices S u ++ redactionNotices S v := by
  rw [redactionNotices, hiddenOptions, scan_append_line hclosed hv, List.filterMap_append,
    filterMap_hiddenOption?_spaced, List.map_append]
  rfl

/-! ## Aligned lines -/

theorem Redactor.oneLine_cons (t t' : Text) (lines : List Text) :
    oneLine (t :: t' :: lines) = t ++ ' ' :: oneLine (t' :: lines) := by
  simp [oneLine, Text.joined]

/-- Lines each of which but the first starts with a marked option, and none of which but the last
leaves a quote open. -/
structure Aligned (lines : List Text) : Prop where
  marked : ∀ t ∈ lines.tail, StartsMarkedOption t
  closed : ∀ t ∈ lines.dropLast, ∀ f ∈ findAll t, ¬ f.pair.IsOpen

namespace Aligned

variable {t t' : Text} {lines : List Text}

theorem tail (h : Aligned (t :: lines)) : Aligned lines where
  marked := fun t ht => h.marked t (List.mem_of_mem_tail ht)
  closed := by
    cases lines with
    | nil => simp
    | cons t' lines => exact fun t ht => h.closed t (by simp [ht])

theorem startsPair_oneLine (h : Aligned (t :: t' :: lines)) :
    startsPair (Redactor.oneLine (t' :: lines)) = true := by
  have hstart : startsPair t' = true := startsMarkedOption_iff.1 (h.marked t' (by simp))
  cases lines with
  | nil => exact hstart
  | cons t'' lines =>
    rw [Redactor.oneLine_cons, startsPair_append (stops_isInk_blank _)]
    exact hstart

theorem redactLine_eq_joined (h : Aligned lines) (S : Text → Bool) (token : Text) :
    redactLine S token (Redactor.oneLine lines) =
      Redactor.oneLine (lines.map (redactLine S token)) := by
  induction lines with
  | nil => simp [Redactor.oneLine, Text.joined, redactLine, scan, scanFrom]
  | cons t lines ih =>
    cases lines with
    | nil => rfl
    | cons t' lines =>
      have hjoined := redactLine_append_line (h.closed t (by simp)) h.startsPair_oneLine S token
      rw [Redactor.oneLine_cons, hjoined, ih h.tail]
      exact (Redactor.oneLine_cons _ _ _).symm

theorem redactionNotices_eq_flatMap (h : Aligned lines) (S : Text → Bool) :
    redactionNotices S (Redactor.oneLine lines) = lines.flatMap (redactionNotices S) := by
  induction lines with
  | nil =>
    simp [Redactor.oneLine, Text.joined, redactionNotices, hiddenOptions, scan, scanFrom]
  | cons t lines ih =>
    cases lines with
    | nil => simp [Redactor.oneLine, Text.joined]
    | cons t' lines =>
      have hjoined := redactionNotices_append_line (h.closed t (by simp)) h.startsPair_oneLine S
      rw [Redactor.oneLine_cons, hjoined, ih h.tail]
      exact List.flatMap_cons.symm

end Aligned

/-- The one line that aligned lines make is redacted to what the lines redacted one by one make, by
every scanning redactor, whatever rule its dictionary decides by, and the same arguments are
reported in the same order. -/
theorem redactSubject_lines {lines : List Text} (h : Aligned lines) (token : Text)
    (dictionary : Dictionary) :
    ∃ redacted : List Text,
      (⟨token, dictionary, .scanning⟩ : Redactor).redactEach (lines.map some) =
        redacted.map some ∧
      (⟨token, dictionary, .scanning⟩ : Redactor).redactSubject (.lines lines) =
        some (Text.joined [' '] redacted) ∧
      (⟨token, dictionary, .scanning⟩ : Redactor).subjectNotices (.lines lines) =
        lines.flatMap (⟨token, dictionary, .scanning⟩ : Redactor).notices := by
  refine ⟨lines.map (redactLine dictionary.isSensitive token), ?_, ?_, ?_⟩
  · simp [Redactor.redactEach, Redactor.redact]
  · exact congrArg some (h.redactLine_eq_joined dictionary.isSensitive token)
  · exact h.redactionNotices_eq_flatMap dictionary.isSensitive

/-- Names by the whole name, which neither leads nor parts can. -/
def onlyPassword : Dictionary := .custom fun name => name = some "password".toList

/-- Joined, the first line's last option is followed by the second line's first one. -/
theorem redactSubject_lines_waiting :
    Aligned ["user=me --password = ".toList, "--J=-Dpassword=x y".toList,
        "--my-password \"open --c".toList] ∧
      (⟨"***".toList, onlyPassword, .scanning⟩ : Redactor).redactSubject
          (.lines ["user=me --password = ".toList, "--J=-Dpassword=x y".toList,
            "--my-password \"open --c".toList]) =
        some "user=me --password =  --J=-Dpassword=*** y --my-password \"open --c".toList := by
  have hunquoted : ∀ t ∈ ["user=me --password = ".toList, "--J=-Dpassword=x y".toList],
      ∀ f ∈ findAll t, ∀ b ∈ f.pair.binding, b.argument.head? ≠ some '"' := by decide +kernel
  have haligned : Aligned ["user=me --password = ".toList, "--J=-Dpassword=x y".toList,
      "--my-password \"open --c".toList] := by
    refine ⟨?_, ?_⟩
    · have hstart : ∀ t ∈ ["--J=-Dpassword=x y".toList, "--my-password \"open --c".toList],
          startsPair t = true := by decide +kernel
      exact fun t ht => startsMarkedOption_iff.2 (hstart t ht)
    · rintro t ht f hf ⟨b, hb, _, _, hopen⟩
      exact hunquoted t ht f hf b hb (by simp [hopen])
  obtain ⟨redacted, heach, hjoined, -⟩ := redactSubject_lines haligned "***".toList onlyPassword
  have hone : (⟨"***".toList, onlyPassword, .scanning⟩ : Redactor).redactEach
      (["user=me --password = ".toList, "--J=-Dpassword=x y".toList,
        "--my-password \"open --c".toList].map some) =
      ["user=me --password = ".toList, "--J=-Dpassword=*** y".toList,
        "--my-password \"open --c".toList].map some := by decide +kernel
  have hredacted := List.map_inj_right (fun _ _ => Option.some.inj) |>.1 (heach.symm.trans hone)
  refine ⟨haligned, ?_⟩
  rw [hjoined, hredacted]
  rfl

end Gatekeeper.Redaction
