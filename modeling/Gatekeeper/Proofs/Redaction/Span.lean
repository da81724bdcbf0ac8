import Gatekeeper.Redaction.Lexeme
import Gatekeeper.Proofs.Redaction.Grammar

/-!
# Spans of the pairs in a line

A pair that is found in a line has a span, from its start to its stop, and its argument ends that
span. Main statement: the spans cut out of the line what the pairs are made of, each span starts at
a token and is parted from the next by whitespace, and each part is whole by itself
(`soundSpans_findAll`). Rewriting a line by position rests on all of this.
-/

namespace Gatekeeper.Redaction

variable {t line : Text}

/-! ## Whole parts -/

namespace Lexeme

/-- What a part is made of, whatever it is read with. -/
def Kind : Lexeme → Text → Prop
  | .marker, t => ∃ m : Marker, m ≠ .bare ∧ m.text = t
  | .option, t => IsOption t
  | .assignment, t => IsAssignment t
  | .argument, t => IsArgument t

theorem isWhole_iff_read? {l : Lexeme} : l.isWhole t = true ↔ l.read? t = some (t, []) := by
  rw [isWhole]
  exact decide_eq_true_iff

theorem isLongest_nil_iff {m : Marker} : m.IsLongest [] ↔ m ≠ .bare := by
  cases m <;> simp [Marker.IsLongest]

theorem read?_marker_iff : marker.read? t = some (t, []) ↔ marker.Kind t := by
  have hread : marker.read? t = some (t, []) ↔ ∃ m, Marker.read? t = some (m, []) ∧ m.text = t := by
    simp [read?, Option.map_eq_some_iff]
  rw [hread, Kind]
  constructor
  · rintro ⟨m, hm, ht⟩
    exact ⟨m, (Marker.isLongest_of_read? hm).ne_bare, ht⟩
  · rintro ⟨m, hm, rfl⟩
    exact ⟨m, Marker.read?_eq_some_iff.2 ⟨by simp, isLongest_nil_iff.2 hm⟩, rfl⟩

/-- A text is wholly a part exactly if it is made of what such parts are made of. -/
theorem isWhole_iff {l : Lexeme} : l.isWhole t = true ↔ l.Kind t := by
  rw [isWhole_iff_read?]
  cases l with
  | marker => exact read?_marker_iff
  | option => simp [read?, readOption?_eq_some_iff, Kind]
  | assignment => simp [read?, readAssignment?_eq_some_iff, Kind]
  | argument => simp [read?, readArgument?_eq_some_iff, EndsArgument, Kind]

end Lexeme

theorem IsArgument.stops_isSpace {a : Text} (h : IsArgument a) : Stops Text.isSpace a := by
  have hquote : Text.isSpace '"' = false := by decide
  rcases h with ⟨hne, hink, -⟩ | ⟨body, tail, -, -, rfl⟩ | ⟨body, -, rfl⟩
  · obtain ⟨c, a, rfl⟩ := List.exists_cons_of_ne_nil hne
    simpa [isInk] using hink c (by simp)
  · exact stops_cons.2 hquote
  · exact stops_cons.2 hquote

/-! ## One span -/

theorem extract_between (u v w : Text) :
    (u ++ (v ++ w)).extract u.length (u ++ v).length = v := by
  simp

/-- A pair as the scan cuts it off, with the texts of the line before and behind it. -/
structure Found.Between (f : Found) (before after : Text) (place : Place) : Prop where
  start : f.start = before.length
  follows : place.Follows before
  wellFormed : f.pair.WellFormed
  allows : place.Allows f.pair.marker
  ends : f.pair.Ends after

theorem exists_between_of_found {f : Found} (hf : f ∈ findAll line) :
    ∃ before after place, line = before ++ (f.pair.text ++ after) ∧
      f.Between before after place := by
  obtain ⟨before, after, hscan, hstart, hline⟩ := exists_of_mem_findAll hf
  obtain ⟨place, hfollows, hwf, hallows, hends⟩ := exists_follows_of_scan hscan
  exact ⟨flatten before, flatten after, place, hline, hstart, hfollows, hwf, hallows, hends⟩

namespace Found.Between

variable {f : Found} {before after : Text} {place : Place}

theorem stop (h : f.Between before after place) : f.stop = (before ++ f.pair.text).length := by
  rw [Found.stop, h.start, List.length_append]

theorem extract_text (h : f.Between before after place) :
    (before ++ (f.pair.text ++ after)).extract f.start f.stop = f.pair.text := by
  rw [h.start, h.stop]
  exact extract_between before f.pair.text after

theorem extract_argument (h : f.Between before after place) {a : Text}
    (ha : f.pair.argument? = some a) :
    (before ++ (f.pair.text ++ after)).extract f.argumentStart f.stop = a := by
  have htext : f.pair.text = f.pair.stem ++ a := by
    rw [Pair.text_eq_stem_append, ha, Option.getD_some]
  have hstart : f.argumentStart = (before ++ f.pair.stem).length := by
    rw [Found.argumentStart_eq, h.start, List.length_append]
  have hstop : f.stop = ((before ++ f.pair.stem) ++ a).length := by
    rw [h.stop, htext, List.append_assoc]
  have hline : before ++ (f.pair.text ++ after) = (before ++ f.pair.stem) ++ (a ++ after) := by
    simp [htext]
  rw [hline, hstart, hstop]
  exact extract_between (before ++ f.pair.stem) a after

theorem ends_argument (h : f.Between before after place) (ha : f.pair.argument? ≠ none) :
    Stops isInk after := by
  have hends := h.ends
  cases hb : f.pair.binding with
  | none => exact absurd (by rw [Pair.argument?, hb, Option.map_none]) ha
  | some b =>
    rw [Pair.Ends, hb] at hends
    exact hends.1

/-- Only where nothing but whitespace was read may a pair go without a marker. -/
theorem start_of_unmarked (h : f.Between before after place) (hbare : f.pair.marker.text = []) :
    f.start = ((before ++ (f.pair.text ++ after)).takeWhile Text.isSpace).length := by
  have hmarker : f.pair.marker = .bare := by
    by_contra hne
    obtain ⟨k, hk⟩ := Marker.exists_text_eq_cons hne
    rw [hbare] at hk
    exact List.cons_ne_nil _ _ hk.symm
  have hallows := h.allows
  rw [hmarker] at hallows
  have hblank : Text.isBlank before = true := by
    cases place with
    | opening => exact h.follows
    | boundary => exact absurd rfl hallows
    | inside => exact absurd hallows id
  have hspace : ∀ c ∈ before, Text.isSpace c = true := List.all_eq_true.1 hblank
  rw [(h.wellFormed.stops_isSpace after).takeWhile_append, List.takeWhile_eq_self_iff.2 hspace,
    h.start]

end Found.Between

/-- What the span of a pair says about the line it was found in, and its parts by themselves. -/
structure Found.SoundIn (t : Text) (f : Found) : Prop where
  token : IsTokenStart t f.start
  stop_le : f.stop ≤ t.length
  text : t.extract f.start f.stop = f.pair.text
  text_ne_nil : f.pair.text ≠ []
  bound : f.pair.assignment? = none ↔ f.pair.argument? = none
  argument : ∀ a ∈ f.pair.argument?, t.extract f.argumentStart f.stop = a ∧ a ≠ []
  ends : f.pair.argument? ≠ none →
    f.stop = t.length ∨ ∃ c, t[f.stop]? = some c ∧ Text.isSpace c = true
  marker : f.pair.marker.text ≠ [] → Lexeme.marker.isWhole f.pair.marker.text = true
  option : Lexeme.option.isWhole f.pair.option = true
  assignment : ∀ a ∈ f.pair.assignment?, Lexeme.assignment.isWhole a = true
  whole : ∀ a ∈ f.pair.argument?, Lexeme.argument.isWhole a = true
  unspaced : ∀ a ∈ f.pair.argument?, ∀ c ∈ a.head?, Text.isSpace c = false
  unmarked : f.pair.marker.text = [] → f.start = (t.takeWhile Text.isSpace).length

theorem Found.Between.soundIn {f : Found} {before after : Text} {place : Place}
    (h : f.Between before after place) (hf : f ∈ findAll (before ++ (f.pair.text ++ after))) :
    f.SoundIn (before ++ (f.pair.text ++ after)) where
  token := isTokenStart_of_found hf
  stop_le := by simp [h.stop]
  text := h.extract_text
  text_ne_nil := h.wellFormed.text_ne_nil
  bound := by simp [Pair.assignment?, Pair.argument?]
  argument := by
    intro a ha
    obtain ⟨b, hb, rfl⟩ := Option.map_eq_some_iff.1 ha
    exact ⟨h.extract_argument ha, (h.wellFormed.binding b hb).argument.ne_nil⟩
  ends := by
    intro ha
    have hink := h.ends_argument ha
    rw [h.stop, ← List.append_assoc]
    cases after with
    | nil => exact Or.inl (by simp)
    | cons c after =>
      refine Or.inr ⟨c, by simp, ?_⟩
      simpa [isInk] using hink
  marker := by
    intro hmarker
    refine Lexeme.isWhole_iff.2 ⟨f.pair.marker, ?_, rfl⟩
    rintro hbare
    exact hmarker (by rw [hbare]; rfl)
  option := Lexeme.isWhole_iff.2 h.wellFormed.option
  assignment := by
    intro a ha
    obtain ⟨b, hb, rfl⟩ := Option.map_eq_some_iff.1 ha
    exact Lexeme.isWhole_iff.2 (h.wellFormed.binding b hb).assignment
  whole := by
    intro a ha
    obtain ⟨b, hb, rfl⟩ := Option.map_eq_some_iff.1 ha
    exact Lexeme.isWhole_iff.2 (h.wellFormed.binding b hb).argument
  unspaced := by
    intro a ha c hc
    obtain ⟨b, hb, rfl⟩ := Option.map_eq_some_iff.1 ha
    exact (h.wellFormed.binding b hb).argument.stops_isSpace c hc
  unmarked := h.start_of_unmarked

/-! ## All spans of a line -/

/-- Where the pairs of a line stand: each as its span says, and in order, parted from each other. -/
structure SoundSpans (line : Text) (found : List Found) : Prop where
  sound : ∀ f ∈ found, f.SoundIn line
  parted : found.Pairwise fun f g => f.stop < g.start

theorem Found.Between.exists_isInk_stop {f : Found} {before after : Text} {place : Place}
    (h : f.Between before after place) (hafter : after ≠ []) :
    ∃ c, (before ++ (f.pair.text ++ after))[f.stop - 1]? = some c ∧ isInk c = true := by
  obtain ⟨c, hc, hink⟩ := exists_getLast?_append
    (f.pair.exists_isInk_getLast? h.wellFormed h.ends hafter) before
  refine ⟨c, ?_, hink⟩
  rw [List.getLast?_eq_getElem?, Option.mem_def, ← h.stop] at hc
  have hlt := (List.getElem?_eq_some_iff.1 hc).1
  rw [← List.append_assoc, List.getElem?_append_left hlt, hc]

/-- A pair that is not the last of its line ends in ink, and the next starts behind whitespace. -/
theorem stop_lt_start {f g : Found} (hf : f ∈ findAll line) (hg : g ∈ findAll line)
    (hle : f.stop ≤ g.start) : f.stop < g.start := by
  obtain ⟨⟨d, hd, -⟩, hbefore⟩ := isTokenStart_of_found hg
  obtain ⟨before, after, place, rfl, h⟩ := exists_between_of_found hf
  refine Nat.lt_of_le_of_ne hle fun hsame => ?_
  have hafter : after ≠ [] := by
    rintro rfl
    have hlt := (List.getElem?_eq_some_iff.1 hd).1
    rw [← hsame, h.stop] at hlt
    simp at hlt
  obtain ⟨c, hc, hink⟩ := h.exists_isInk_stop hafter
  rw [hsame] at hc
  rcases hbefore with hzero | ⟨s, hs, hspace⟩
  · have hpos := List.length_pos_iff.2 h.wellFormed.text_ne_nil
    rw [Found.stop] at hsame
    omega
  · obtain rfl := Option.some.inj (hc.symm.trans hs)
    simp [isInk, hspace] at hink

theorem soundIn_of_found {f : Found} (hf : f ∈ findAll line) : f.SoundIn line := by
  obtain ⟨before, after, place, rfl, h⟩ := exists_between_of_found hf
  exact h.soundIn hf

theorem pairwise_findAll (line : Text) :
    (findAll line).Pairwise fun f g => f.stop < g.start := by
  have hordered : (findAll line).Pairwise fun f g => f.stop ≤ g.start := pairwise_locate 0 _
  exact hordered.imp_of_mem fun hf hg hle => stop_lt_start hf hg hle

/-- The spans of the pairs in a line are sound, whatever the line. -/
theorem soundSpans_findAll (line : Text) : SoundSpans line (findAll line) where
  sound := fun _ hf => soundIn_of_found hf
  parted := pairwise_findAll line

end Gatekeeper.Redaction
