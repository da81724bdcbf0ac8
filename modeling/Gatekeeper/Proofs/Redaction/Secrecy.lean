import Gatekeeper.Redaction.Redactor
import Gatekeeper.Proofs.Redaction.Cutting
import Mathlib.Data.List.Basic

/-!
# Secrecy of hidden arguments

Two lines that differ in a hidden argument only are cut alike: the pieces before it see no further
than the start of its pair, and those behind it start at the same whitespace. So what a redaction
puts out and what it reports are the same for both (`redactLine_substitute`).
-/

namespace Gatekeeper.Redaction

variable {t u v w rest : Text} {p : Pair} {place : Place}

/-- A text that stays one argument wherever one stands: ink that could be taken for nothing else. -/
def IsPlain (w : Text) : Prop :=
  w ≠ [] ∧ (∀ c ∈ w, isInk c = true) ∧ ∀ c ∈ w.head?, c ≠ '"' ∧ c ≠ '=' ∧ c ≠ '-'

def IsSafe (w : Text) : Prop :=
  IsPlain w ∨ ∃ body, (∀ c ∈ body, isUnquoted c = true) ∧ w = '"' :: (body ++ ['"'])

/-- A text that is read as the argument again, whichever argument it takes the place of. -/
structure Stands (w : Text) : Prop where
  argument : IsRun w ∨ IsClosedQuote w
  unequal : w.head? ≠ some '='
  unmarked : startsPair w = false
  unforwarded : ¬ ['-', 'D'] <+: w

namespace IsSafe

theorem isRun_or_isClosedQuote (h : IsSafe w) : IsRun w ∨ IsClosedQuote w := by
  rcases h with ⟨hne, hink, hhead⟩ | ⟨body, hbody, rfl⟩
  · exact Or.inl ⟨hne, hink, fun hq => (hhead '"' hq).1 rfl⟩
  · exact Or.inr ⟨body, [], hbody, by simp, rfl⟩

theorem head?_ne (h : IsSafe w) {c : Char} (hc : c = '=' ∨ c = '-') : w.head? ≠ some c := by
  rcases h with ⟨_, _, hhead⟩ | ⟨body, _, rfl⟩
  · intro hw
    obtain ⟨_, heq, hhyphen⟩ := hhead c hw
    rcases hc with rfl | rfl
    · exact heq rfl
    · exact hhyphen rfl
  · rcases hc with rfl | rfl <;> simp

theorem startsPair_eq_false (h : IsSafe w) : startsPair w = false := by
  have hstop : Stops isHyphen w := by
    intro c hc
    by_contra hh
    have hhyphen : c = '-' := by simpa [isHyphen] using hh
    exact h.head?_ne (Or.inr hhyphen) hc
  simp [startsPair, Marker.read?_eq_none hstop]

theorem stands (h : IsSafe w) : Stands w := by
  refine ⟨h.isRun_or_isClosedQuote, h.head?_ne (Or.inl rfl), h.startsPair_eq_false, ?_⟩
  rintro ⟨k, rfl⟩
  exact h.head?_ne (Or.inr rfl) rfl

end IsSafe

namespace Stands

theorem isArgument (h : Stands w) : IsArgument w := by
  rcases h.argument with hrun | hclosed
  · exact Or.inl hrun
  · exact Or.inr (Or.inl hclosed)

theorem not_isOpenQuote (h : Stands w) : ¬ IsOpenQuote w := by
  rcases h.argument with hrun | hclosed
  · exact not_isOpenQuote_of_isRun hrun
  · exact not_isOpenQuote_of_isClosedQuote hclosed

end Stands

namespace Pair

theorem WellFormed.withArgument (h : p.WellFormed) (hw : Stands w) :
    (p.withArgument w).WellFormed := by
  refine ⟨h.option, ?_, ?_⟩
  · intro b hb
    obtain ⟨b, hb', rfl⟩ := Option.map_eq_some_iff.1 hb
    exact ⟨(h.binding b hb').assignment, hw.isArgument, fun _ => hw.unequal, fun _ => hw.unmarked⟩
  · intro ⟨_, _, b, hb, _, hforwarded⟩
    obtain ⟨b, _, rfl⟩ := Option.map_eq_some_iff.1 hb
    exact hw.unforwarded hforwarded

theorem Ends.withArgument (h : p.Ends rest) (hw : Stands w) : (p.withArgument w).Ends rest := by
  obtain ⟨marker, option, binding⟩ := p
  cases binding with
  | none => exact h
  | some b => exact ⟨h.1, fun hopen => absurd hopen hw.not_isOpenQuote⟩

/-- What a pair is written with in front of its argument. -/
def stem (p : Pair) : Text :=
  p.marker.text ++ p.option ++ (p.binding.map Binding.assignment).getD []

theorem text_eq_stem_append (p : Pair) : p.text = p.stem ++ p.argument?.getD [] := by
  cases hb : p.binding <;> simp [text, stem, argument?, hb, Binding.text]

theorem stem_withArgument (p : Pair) (w : Text) : (p.withArgument w).stem = p.stem := by
  cases hb : p.binding <;> simp [stem, withArgument, hb]

theorem text_withArgument (h : p.binding.isSome = true) (w : Text) :
    (p.withArgument w).text = p.stem ++ w := by
  obtain ⟨b, hb⟩ := Option.isSome_iff_exists.1 h
  rw [text_eq_stem_append, stem_withArgument]
  simp [argument?, withArgument, hb]

theorem stem_ne_nil (h : p.WellFormed) : p.stem ≠ [] := by
  simp [stem, h.option.ne_nil]

end Pair

/-! ## Looking past whitespace -/

/-- What an option finds behind it does not depend on how a pair further on goes on, as long as
that pair starts alike. -/
theorem Binding.read?_append_eq_none (hu : ∀ c ∈ u.getLast?, Text.isSpace c = true)
    (hpad : Stops isPad v) (hequals : v.head? ≠ some '=') (hhead : w.head? = v.head?)
    (hstart : startsPair w = startsPair v) (h : Binding.read? (u ++ v) = none) :
    Binding.read? (u ++ w) = none := by
  have hpad' : Stops isPad w := by simpa only [Stops, hhead] using hpad
  have hequals' : w.head? ≠ some '=' := by rwa [hhead]
  rw [Binding.read?_eq_none_iff, readAssignment?_append hpad hequals] at h
  rw [Binding.read?_eq_none_iff, readAssignment?_append hpad' hequals']
  intro a r hr
  obtain ⟨⟨a, r⟩, ha, heq⟩ := Option.map_eq_some_iff.1 hr
  obtain ⟨rfl, rfl⟩ := Prod.mk.inj heq
  rcases r.eq_nil_or_concat with rfl | ⟨k, s, rfl⟩
  · have hv := h a v (by simp [ha])
    simpa only [Stops, List.nil_append, hhead, hstart] using hv
  · have hs : Text.isSpace s = true := by
      refine hu s ?_
      rw [eq_append_of_readAssignment? ha]
      simp [List.concat_eq_append]
    have hstop : ∀ x, Stops isInk (s :: x) := by simp [isInk, hs]
    have hv := h a (k ++ [s] ++ v) (by simp [ha])
    simp only [List.concat_eq_append, List.append_assoc, List.singleton_append,
      startsPair_append (hstop _), stops_append_iff (hstop _)] at hv ⊢
    exact hv

/-- Whether a piece that fits in front of one text fits in front of the other. -/
structure Alike (rest rest' : Text) : Prop where
  head : rest'.head? = rest.head?
  unbound : Binding.read? rest = none → Binding.read? rest' = none

namespace Alike

variable {rest' : Text}

theorem stops (h : Alike rest rest') {p : Char → Bool} (hs : Stops p rest) : Stops p rest' := by
  simpa only [Stops, h.head] using hs

theorem eq_nil (h : Alike rest rest') (hrest : rest = []) : rest' = [] := by
  have hhead := h.head
  simpa [hrest] using hhead

theorem endsArgument (h : Alike rest rest') {a : Text} (ha : EndsArgument a rest) :
    EndsArgument a rest' :=
  ⟨h.stops ha.1, fun hopen => h.eq_nil (ha.2 hopen)⟩

theorem ends (h : Alike rest rest') (hends : p.Ends rest) : p.Ends rest' := by
  obtain ⟨marker, option, binding⟩ := p
  cases binding with
  | none => exact ⟨h.stops hends.1, h.unbound hends.2⟩
  | some b => exact h.endsArgument hends

theorem fits (h : Alike rest rest') {q : Piece} (hq : q.Fits place rest) :
    q.Fits place rest' := by
  cases q with
  | gap g => exact ⟨hq.1, hq.2.1, h.stops hq.2.2⟩
  | word w => exact ⟨hq.1, hq.2.1, h.stops hq.2.2.1, hq.2.2.2⟩
  | pair p => exact ⟨hq.1, hq.2.1, h.ends hq.2.2⟩

end Alike

theorem alike_withArgument (hu : ∀ c ∈ u.getLast?, Text.isSpace c = true) (hp : p.WellFormed)
    (hends : p.Ends rest) (hw : Stands w) :
    Alike (u ++ (p.text ++ rest)) (u ++ ((p.withArgument w).text ++ rest)) := by
  have hhead : ((p.withArgument w).text ++ rest).head? = (p.text ++ rest).head? := by
    obtain ⟨c, k, hstem⟩ := List.exists_cons_of_ne_nil (Pair.stem_ne_nil hp)
    simp [Pair.text_eq_stem_append, Pair.stem_withArgument, hstem]
  have hspace := hp.stops_isSpace rest
  have hpad : Stops isPad (p.text ++ rest) := hspace.mono fun _ => isSpace_of_isPad
  have hstart : startsPair ((p.withArgument w).text ++ rest) = startsPair (p.text ++ rest) := by
    rw [Bool.eq_iff_iff, Pair.startsPair_text hp hends,
      Pair.startsPair_text (hp.withArgument hw) (hends.withArgument hw)]
    rfl
  refine ⟨by simp only [List.head?_append, hhead], fun h => ?_⟩
  exact Binding.read?_append_eq_none hu hpad (hp.head?_ne_equals rest) hhead hstart h

/-- A pair stands at the start of the line or behind whitespace. -/
theorem isSpace_getLast?_flatten {before after : List Piece}
    (h : Fitting place (before ++ .pair p :: after)) :
    ∀ c ∈ (flatten before).getLast?, Text.isSpace c = true := by
  induction before generalizing place with
  | nil => simp
  | cons q before ih =>
    have hrest := ih h.2
    intro c hc
    by_cases hnil : flatten before = []
    · have hbefore : before = [] := by
        cases before with
        | nil => rfl
        | cons q' before => simp [h.2.1.text_ne_nil] at hnil
      subst hbefore
      cases q with
      | word w => exact absurd h.2.1.2.1 id
      | pair p' => exact absurd h.2.1.2.1 id
      | gap g =>
        have hblank : ∀ d ∈ g, Text.isSpace d = true := List.all_eq_true.1 h.1.2.1
        refine hblank c (List.mem_of_mem_getLast? ?_)
        simpa [Piece.text] using hc
    · rw [flatten_cons, List.getLast?_append_of_ne_nil _ hnil] at hc
      exact hrest c hc

theorem fitting_withArgument {before after : List Piece} (hw : Stands w)
    (h : Fitting place (before ++ .pair p :: after)) :
    Fitting place (before ++ .pair (p.withArgument w) :: after) := by
  induction before generalizing place with
  | nil =>
    obtain ⟨⟨hp, hallows, hends⟩, hafter⟩ := h
    exact ⟨⟨hp.withArgument hw, hallows, hends.withArgument hw⟩, hafter⟩
  | cons q before ih =>
    obtain ⟨hfits, hrest⟩ := h
    refine ⟨?_, ih hrest⟩
    -- A piece sees the changed argument only past the whitespace in front of its pair.
    obtain ⟨_, hp, _, hends⟩ := hrest.exists_fits
    have halike := alike_withArgument (isSpace_getLast?_flatten hrest) hp hends hw
    simp only [List.append_eq, flatten_append, flatten_cons, Piece.text] at hfits ⊢
    exact halike.fits hfits

/-! ## The two lines -/

/-- The line with another text where the argument of a pair stands that was found in it. -/
def Found.substitute (f : Found) (w line : Text) : Text :=
  line.take f.argumentStart ++ w ++ line.drop f.stop

theorem Found.argumentStart_eq (f : Found) : f.argumentStart = f.start + f.pair.stem.length := by
  have hlength := congrArg List.length f.pair.text_eq_stem_append
  rw [List.length_append] at hlength
  rw [argumentStart, stop]
  omega

theorem Found.substitute_eq_flatten {f : Found} {before after : List Piece}
    (hbinding : f.pair.binding.isSome = true) (hstart : f.start = (flatten before).length) :
    f.substitute w (flatten before ++ (f.pair.text ++ flatten after)) =
      flatten (before ++ .pair (f.pair.withArgument w) :: after) := by
  have hdrop : (flatten before ++ (f.pair.text ++ flatten after)).drop f.stop = flatten after := by
    rw [← List.append_assoc, stop, hstart, ← List.length_append, List.drop_left]
  have htake : (flatten before ++ (f.pair.text ++ flatten after)).take f.argumentStart =
      flatten before ++ f.pair.stem := by
    rw [f.pair.text_eq_stem_append, List.append_assoc, ← List.append_assoc, argumentStart_eq,
      hstart, ← List.length_append, List.take_left]
  simp [substitute, hdrop, htake, Piece.text, Pair.text_withArgument hbinding]

theorem Pair.isHidden_withArgument (sensitive : Text → Bool) (p : Pair) (w : Text) :
    (p.withArgument w).isHidden sensitive = p.isHidden sensitive := by
  simp [isHidden, withArgument]

theorem Pair.withArgument_withArgument (p : Pair) (w token : Text) :
    (p.withArgument w).withArgument token = p.withArgument token := by
  cases hb : p.binding <;> simp [withArgument, hb]

theorem scan_substitute {line : Text} {f : Found} {before after : List Piece} (hw : IsSafe w)
    (hbinding : f.pair.binding.isSome = true) (hscan : scan line = before ++ .pair f.pair :: after)
    (hstart : f.start = (flatten before).length) :
    scan (f.substitute w line) = before ++ .pair (f.pair.withArgument w) :: after := by
  have hline := flatten_scan line
  have hfitting := fitting_scanFrom .opening line
  rw [← scan, hscan] at hfitting
  simp only [hscan, flatten_append, flatten_cons, Piece.text] at hline
  rw [← hline, Found.substitute_eq_flatten hbinding hstart]
  exact scanFrom_flatten (fitting_withArgument hw.stands hfitting)

/-- Neither what a redaction puts out nor what it reports depends on a hidden argument: any safe
text in its place gives the same. -/
theorem redactLine_substitute (sensitive : Text → Bool) (token line : Text) {f : Found}
    (hf : f ∈ findAll line) (hhidden : f.pair.isHidden sensitive = true) {w : Text}
    (hw : IsSafe w) :
    redactLine sensitive token (f.substitute w line) = redactLine sensitive token line ∧
      redactionNotices sensitive (f.substitute w line) = redactionNotices sensitive line := by
  obtain ⟨before, after, hscan, hstart, _⟩ := exists_of_mem_findAll hf
  have hbinding : f.pair.binding.isSome = true := by
    rw [Pair.isHidden, Bool.and_eq_true] at hhidden
    exact hhidden.1
  have hhidden' : (f.pair.withArgument w).isHidden sensitive = true := by
    rw [Pair.isHidden_withArgument]
    exact hhidden
  have hscan' := scan_substitute hw hbinding hscan hstart
  constructor
  · simp [redactLine, hscan, hscan', Piece.redacted, hhidden, hhidden',
      Pair.withArgument_withArgument]
  · simp [redactionNotices, hiddenOptions, hscan, hscan', Piece.hiddenOption?, hhidden, hhidden']
    rfl

/-- A quote left open that hides the rest of its line gives way to a closed one. -/
theorem redactLine_substitute_openQuote :
    redactLine Dictionary.standard.isSensitive "***".toList
        "--user=me --password \"other words\"".toList =
      redactLine Dictionary.standard.isSensitive "***".toList
        "--user=me --password \"open -Dpassword=x".toList ∧
    redactionNotices Dictionary.standard.isSensitive
        "--user=me --password \"other words\"".toList =
      redactionNotices Dictionary.standard.isSensitive
        "--user=me --password \"open -Dpassword=x".toList := by
  have hfound : (⟨⟨.hyphens 0, "password".toList,
      some ⟨[' '], "\"open -Dpassword=x".toList⟩⟩, 10⟩ : Found) ∈
        findAll "--user=me --password \"open -Dpassword=x".toList := by
    decide +kernel
  have hsafe : IsSafe "\"other words\"".toList :=
    Or.inr ⟨"other words".toList, List.all_eq_true.1 (by decide), by decide⟩
  have hsame := redactLine_substitute Dictionary.standard.isSensitive "***".toList
    "--user=me --password \"open -Dpassword=x".toList hfound (by decide +kernel) hsafe
  have hline : (⟨⟨.hyphens 0, "password".toList,
      some ⟨[' '], "\"open -Dpassword=x".toList⟩⟩, 10⟩ : Found).substitute
        "\"other words\"".toList "--user=me --password \"open -Dpassword=x".toList =
      "--user=me --password \"other words\"".toList := by
    decide +kernel
  rwa [hline] at hsame

end Gatekeeper.Redaction
