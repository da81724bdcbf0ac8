import Gatekeeper.Proofs.Redaction.Reading

/-!
# Well-formed pairs

A pair is well formed when its parts are of their kinds and none of them could be read otherwise in
front of the next. Main statement: the reader finds a pair exactly where a well-formed one is
written and what follows cannot be taken for a part of it (`Pair.read?_eq_some_iff`).
-/

namespace Gatekeeper.Redaction

variable {t rest : Text}

theorem IsAssignment.ne_nil {a : Text} (h : IsAssignment a) : a ≠ [] := by
  rcases h with ⟨l, r, _, _, rfl⟩ | ⟨hne, _⟩
  · simp
  · exact hne

theorem isOptionChar_eq_false_of_isPad {c : Char} (h : isPad c = true) :
    isOptionChar c = false := by
  simp [isOptionChar, isSpace_of_isPad h]

theorem IsAssignment.stops_isOptionChar {a : Text} (h : IsAssignment a) :
    Stops isOptionChar a := by
  rcases h with ⟨l, r, hl, _, rfl⟩ | ⟨hne, hpads⟩
  · cases l with
    | nil => simp [isOptionChar]
    | cons c l => exact stops_cons.2 (isOptionChar_eq_false_of_isPad (hl c (by simp)))
  · obtain ⟨c, a, rfl⟩ := List.exists_cons_of_ne_nil hne
    exact stops_cons.2 (isOptionChar_eq_false_of_isPad (hpads c (by simp)))

namespace Binding

/-- An assignment that does not stop at its equals sign ends in a blank. -/
structure WellFormed (b : Binding) : Prop where
  assignment : IsAssignment b.assignment
  argument : IsArgument b.argument
  unequal : '=' ∉ b.assignment → b.argument.head? ≠ some '='
  unmarked : b.assignment.getLast? ≠ some '=' → startsPair b.argument = false

theorem head?_argument_append {b : Binding} (h : b.WellFormed) (rest : Text) :
    (b.argument ++ rest).head? = b.argument.head? := by
  obtain ⟨c, a, ha⟩ := List.exists_cons_of_ne_nil h.argument.ne_nil
  simp [ha]

theorem accepts_iff {a : Text} :
    accepts a t = true ↔ (a.getLast? ≠ some '=' → startsPair t = false) := by
  by_cases h : a.getLast? = some '=' <;> simp [accepts, h]

theorem wellFormed_of_read? {b : Binding} (h : read? t = some (b, rest)) :
    b.WellFormed ∧ EndsArgument b.argument rest := by
  unfold read? at h
  split at h
  · simp at h
  · next assignment r ha =>
    split at h
    · simp at h
    · next argument r' hr =>
      simp only [Option.ite_none_right_eq_some, Option.some.injEq, Prod.mk.injEq] at h
      obtain ⟨hacc, rfl, rfl⟩ := h
      obtain ⟨hassign, _, heq⟩ := isAssignment_of_readAssignment? ha
      obtain ⟨rfl, harg, hend⟩ := readArgument?_eq_some_iff.1 hr
      obtain ⟨c, k, rfl⟩ := List.exists_cons_of_ne_nil harg.ne_nil
      rw [accepts_iff, startsPair_append hend.1] at hacc
      exact ⟨⟨hassign, harg, by simpa using heq, hacc⟩, hend⟩

theorem read?_eq_some_iff {b : Binding} :
    read? t = some (b, rest) ↔
      t = b.text ++ rest ∧ b.WellFormed ∧ EndsArgument b.argument rest := by
  constructor
  · intro h
    exact ⟨eq_append_of_read? h, wellFormed_of_read? h⟩
  · intro ⟨ht, hb, hend⟩
    subst ht
    have hpad : Stops isPad (b.argument ++ rest) := by
      rw [stops_append_of_ne_nil hb.argument.ne_nil]
      exact hb.argument.stops_isPad
    have ha : readAssignment? (b.assignment ++ (b.argument ++ rest)) =
        some (b.assignment, b.argument ++ rest) := by
      refine readAssignment?_eq_some_iff.2 ⟨rfl, hb.assignment, hpad, ?_⟩
      rw [head?_argument_append hb]
      exact hb.unequal
    have hr := readArgument?_eq_some_iff.2 ⟨rfl, hb.argument, hend⟩
    have hacc : accepts b.assignment (b.argument ++ rest) = true := by
      rw [accepts_iff, startsPair_append hend.1]
      exact hb.unmarked
    simp [read?, text, ha, hr, hacc]

/-- An option stands alone when no assignment follows, or no argument behind it, or one that is
taken for the next pair. -/
theorem read?_eq_none_iff :
    read? t = none ↔ ∀ a r, readAssignment? t = some (a, r) →
      Stops isInk r ∨ (a.getLast? ≠ some '=' ∧ startsPair r = true) := by
  rcases ha : readAssignment? t with _ | ⟨a, r⟩
  · simp [read?, ha]
  · rcases hr : readArgument? r with _ | ⟨argument, r'⟩
    · simp [read?, ha, hr, readArgument?_eq_none_iff.1 hr]
    · have hink : ¬ Stops isInk r := by
        intro hs
        rw [readArgument?_eq_none_iff.2 hs] at hr
        simp at hr
      by_cases hacc : accepts a r = true
      · have hne := accepts_iff.1 hacc
        simp [read?, ha, hr, hacc, hink]
        simpa using hne
      · have hne : a.getLast? ≠ some '=' ∧ startsPair r = true := by
          simpa using mt accepts_iff.2 hacc
        simp [read?, ha, hr, hacc, hne]

end Binding

namespace Pair

/-- The last condition keeps the marker of two hyphens apart from `--J=-D`. -/
structure WellFormed (p : Pair) : Prop where
  option : IsOption p.option
  binding : ∀ b ∈ p.binding, b.WellFormed
  unforwarded : ¬ (p.marker = .hyphens 0 ∧ p.option = ['J'] ∧
    ∃ b ∈ p.binding, b.assignment = ['='] ∧ ['-', 'D'] <+: b.argument)

/-- Whether nothing of `rest` could be taken for a part of the pair in front of it. -/
def Ends (p : Pair) (rest : Text) : Prop :=
  match p.binding with
  | none => Stops isOptionChar rest ∧ Binding.read? rest = none
  | some b => EndsArgument b.argument rest

def body (p : Pair) : Text := p.option ++ (p.binding.map Binding.text).getD []

theorem text_eq_append (p : Pair) : p.text = p.marker.text ++ p.body := by
  simp [text, body]

theorem readAfter?_eq_some_iff {m : Marker} {p : Pair} :
    readAfter? m t = some (p, rest) ↔
      t = p.body ++ rest ∧ p.marker = m ∧ IsOption p.option ∧
        (∀ b ∈ p.binding, b.WellFormed) ∧ p.Ends rest := by
  constructor
  · intro h
    unfold readAfter? at h
    split at h
    · simp at h
    · next option r ho =>
      obtain ⟨rfl, hopt, hstop⟩ := readOption?_eq_some_iff.1 ho
      split at h
      · next b r' hb =>
        obtain ⟨rfl, rfl⟩ := Prod.mk.inj (Option.some.inj h)
        obtain ⟨rfl, hwf, hend⟩ := Binding.read?_eq_some_iff.1 hb
        exact ⟨by simp [body], rfl, hopt, by simpa using hwf, hend⟩
      · next hb =>
        obtain ⟨rfl, rfl⟩ := Prod.mk.inj (Option.some.inj h)
        exact ⟨by simp [body], rfl, hopt, by simp, hstop, hb⟩
  · intro ⟨ht, hm, hopt, hwf, hend⟩
    subst ht hm
    obtain ⟨marker, option, binding⟩ := p
    cases binding with
    | none =>
      obtain ⟨hstop, hb⟩ := hend
      have ho := readOption?_eq_some_iff.2 ⟨rfl, hopt, hstop⟩
      simp [readAfter?, body, ho, hb]
    | some b =>
      have hb := Binding.read?_eq_some_iff.2 ⟨rfl, hwf b rfl, hend⟩
      have hstop : Stops isOptionChar (b.text ++ rest) := by
        rw [Binding.text, List.append_assoc, stops_append_of_ne_nil (hwf b rfl).assignment.ne_nil]
        exact (hwf b rfl).assignment.stops_isOptionChar
      have ho := readOption?_eq_some_iff.2 ⟨rfl, hopt, hstop⟩
      simp [readAfter?, body, ho, hb]

theorem stops_isHyphen_body {p : Pair} (h : IsOption p.option) (rest : Text) :
    Stops isHyphen (p.body ++ rest) := by
  rw [body, List.append_assoc, stops_append_of_ne_nil h.ne_nil]
  exact h.unhyphened

theorem readAfter?_forwarded (m : Marker) (k : Text) :
    readAfter? m ('J' :: '=' :: '-' :: 'D' :: k) =
      some (⟨m, ['J'], some ⟨['='], '-' :: 'D' :: k.takeWhile isInk⟩⟩, k.dropWhile isInk) := by
  have ho : readOption? ('J' :: '=' :: '-' :: 'D' :: k) =
      some (['J'], '=' :: '-' :: 'D' :: k) := by
    simp [readOption?, isOptionStart, isOptionChar, isHyphen,
      show Text.isSpace 'J' = false by decide]
  have hr : readArgument? ('-' :: 'D' :: k) =
      some ('-' :: 'D' :: k.takeWhile isInk, k.dropWhile isInk) := by
    simp [readArgument?, show isInk '-' = true by decide, show isInk 'D' = true by decide]
  have ha : readAssignment? ('=' :: '-' :: 'D' :: k) = some (['='], '-' :: 'D' :: k) := by
    simp [readAssignment?, isPad]
  simp [readAfter?, ho, Binding.read?, ha, hr, accepts]

theorem forwarded_prefix_iff {p : Pair} (hopt : IsOption p.option)
    (hwf : ∀ b ∈ p.binding, b.WellFormed) (hend : p.Ends rest) :
    ['J', '=', '-', 'D'] <+: p.body ++ rest ↔
      p.option = ['J'] ∧ ∃ b ∈ p.binding, b.assignment = ['='] ∧ ['-', 'D'] <+: b.argument := by
  constructor
  · intro ⟨k, hk⟩
    have hread := readAfter?_eq_some_iff.2 ⟨rfl, rfl, hopt, hwf, hend⟩
    rw [← hk] at hread
    have hsame := Option.some.inj ((readAfter?_forwarded p.marker k).symm.trans hread)
    rw [← (Prod.mk.inj hsame).1]
    exact ⟨rfl, _, rfl, rfl, k.takeWhile isInk, rfl⟩
  · intro ⟨ho, b, hb, ha, k, hk⟩
    refine ⟨k ++ rest, ?_⟩
    simp [body, ho, Option.mem_def.1 hb, Binding.text, ha, ← hk]

theorem isLongest_body_iff {p : Pair} (hopt : IsOption p.option)
    (hwf : ∀ b ∈ p.binding, b.WellFormed) (hend : p.Ends rest) :
    p.marker.IsLongest (p.body ++ rest) ↔
      p.marker ≠ .bare ∧ ¬ (p.marker = .hyphens 0 ∧ p.option = ['J'] ∧
        ∃ b ∈ p.binding, b.assignment = ['='] ∧ ['-', 'D'] <+: b.argument) := by
  have hforwarded := forwarded_prefix_iff hopt hwf hend
  have hstop := stops_isHyphen_body hopt rest
  cases hm : p.marker with
  | bare => simp [Marker.IsLongest]
  | property => simp [Marker.IsLongest]
  | forwarded => simp [Marker.IsLongest]
  | hyphens extra => simp [Marker.IsLongest, hstop, hforwarded]

theorem read?_eq_some_iff {bare : Bool} {p : Pair} :
    read? bare t = some (p, rest) ↔
      t = p.text ++ rest ∧ p.WellFormed ∧ (p.marker = .bare → bare = true) ∧ p.Ends rest := by
  rw [text_eq_append, List.append_assoc]
  constructor
  · intro h
    unfold read? at h
    split at h
    · next m r hm =>
      obtain ⟨rfl, hl⟩ := Marker.read?_eq_some_iff.1 hm
      obtain ⟨rfl, rfl, hopt, hwf, hend⟩ := readAfter?_eq_some_iff.1 h
      obtain ⟨hbare, hforwarded⟩ := (isLongest_body_iff hopt hwf hend).1 hl
      exact ⟨rfl, ⟨hopt, hwf, hforwarded⟩, fun hb => absurd hb hbare, hend⟩
    · simp only [Option.ite_none_right_eq_some] at h
      obtain ⟨rfl, hm, hopt, hwf, hend⟩ := readAfter?_eq_some_iff.1 h.2
      exact ⟨by simp [hm, Marker.text], ⟨hopt, hwf, by simp [hm]⟩, fun _ => h.1, hend⟩
  · rintro ⟨rfl, ⟨hopt, hwf, hforwarded⟩, hbare, hend⟩
    have hread := readAfter?_eq_some_iff.2 ⟨rfl, rfl, hopt, hwf, hend⟩
    by_cases hm : p.marker = .bare
    · have hnone := Marker.read?_eq_none (stops_isHyphen_body hopt rest)
      rw [hm] at hread
      simp [read?, hm, Marker.text, hnone, hread, hbare hm]
    · have hl := (isLongest_body_iff hopt hwf hend).2 ⟨hm, hforwarded⟩
      simp [read?, Marker.read?_eq_some_iff.2 ⟨rfl, hl⟩, hread]

theorem startsPair_text {p : Pair} (h : p.WellFormed) (hends : p.Ends rest) :
    startsPair (p.text ++ rest) = true ↔ p.marker ≠ .bare := by
  constructor
  · intro hstart hbare
    have hnone := Marker.read?_eq_none (stops_isHyphen_body h.option rest)
    simp [text_eq_append, hbare, Marker.text, startsPair, hnone] at hstart
  · intro hbare
    have hlongest := (isLongest_body_iff h.option h.binding hends).2 ⟨hbare, h.unforwarded⟩
    obtain ⟨c, o, ho⟩ := List.exists_cons_of_ne_nil h.option.ne_nil
    refine startsPair_iff.2 ⟨p.marker, c, o ++ (p.binding.map Binding.text).getD [] ++ rest, ?_⟩
    have hc : isOptionStart c = true := by
      have hhyphen := h.option.unhyphened
      simp_all [isOptionStart, h.option.chars c (by simp [ho])]
    refine ⟨by simp [text, ho], ?_, hc⟩
    simpa [body, ho] using hlongest

end Pair
end Gatekeeper.Redaction
