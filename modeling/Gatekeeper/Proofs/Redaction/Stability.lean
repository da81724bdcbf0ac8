import Gatekeeper.Proofs.Redaction.Composition
import Gatekeeper.Proofs.Redaction.Coverage

/-!
# Which tokens are left alone

A redacted line may be redacted again. A token that stands for an argument wherever it is put is
then put there again, and nothing else changes. Main statement: a token has to be of that kind even
if it is to be left alone in four lines only (`stands_of_probes`). That leaves out the tokens that
begin with whitespace, and those that start like a pair and hold a double quote.
-/

namespace Gatekeeper.Redaction

variable {w v rest line : Text} {S : Text → Bool} {p : Pair}

/-- Redacting the line again changes nothing. -/
def StableOn (S : Text → Bool) (token line : Text) : Prop :=
  redactLine S token (redactLine S token line) = redactLine S token line

theorem Stands.stableOn (hw : Stands w) (S : Text → Bool) (line : Text) : StableOn S w line := by
  rw [StableOn, redactLine_redactLine hw]
  simp only [Bool.or_self]

def everything : Text → Bool := fun _ => true

/-- Lines on which a token shows whether it stands for an argument. -/
def probes : List Text :=
  ["--a=x".toList, "--a=x y".toList, "--a x y".toList, "--a --J=x".toList]

/-! ## Lengths -/

theorem length_redacted_pair {b : Binding} (hb : p.binding = some b) (w : Text) :
    (Piece.redacted everything w (.pair p)).length + b.argument.length =
      p.text.length + w.length := by
  have hhidden : p.isHidden everything = true := by simp [Pair.isHidden, hb, everything]
  simp only [Piece.redacted, hhidden, if_true, Pair.text_eq_stem_append, Pair.stem_withArgument,
    List.length_append]
  simp only [Pair.argument?, Pair.withArgument, hb, Option.map_some, Option.getD_some]
  omega

/-- A line is not left alone if it is longer or shorter once the argument of a pair in it is
hidden. -/
theorem not_stableOn_of_length {before after : List Piece} {b : Binding}
    (hfitting : Fitting .opening (before ++ .pair p :: after))
    (honce : redactLine everything w line = flatten (before ++ .pair p :: after))
    (hbefore : before.flatMap (Piece.redacted everything w) = flatten before)
    (hb : p.binding = some b)
    (hlength : w.length + (after.flatMap (Piece.redacted everything w)).length ≠
      b.argument.length + (flatten after).length) :
    ¬ StableOn everything w line := by
  intro hstable
  rw [StableOn, honce, redactLine, scan, scanFrom_flatten hfitting] at hstable
  have hlengths := congrArg List.length hstable
  have hpair := length_redacted_pair hb w
  simp only [List.flatMap_append, List.flatMap_cons, hbefore, flatten_append, flatten_cons,
    List.length_append, Piece.text] at hlengths
  omega

theorem Piece.Fits.redacted_ne_nil {place : Place} {q : Piece} (h : q.Fits place rest)
    (S : Text → Bool) (w : Text) : q.redacted S w ≠ [] := by
  cases q with
  | gap g => exact h.1
  | word u => exact h.1
  | pair p =>
    rw [Piece.redacted]
    split
    · rw [Pair.text_eq_stem_append, Pair.stem_withArgument]
      exact List.append_ne_nil_of_left_ne_nil (Pair.stem_ne_nil h.1) _
    · exact h.1.text_ne_nil

theorem length_redacted_scanFrom_pos (place : Place) (hv : v ≠ []) (S : Text → Bool) (w : Text) :
    0 < ((scanFrom place v).flatMap (Piece.redacted S w)).length := by
  have hfitting := fitting_scanFrom place v
  cases hscan : scanFrom place v with
  | nil =>
    have hnil := flatten_scanFrom place v
    rw [hscan] at hnil
    exact absurd hnil.symm hv
  | cons q pieces =>
    rw [hscan] at hfitting
    rw [List.flatMap_cons, List.length_append]
    exact Nat.add_pos_left (List.length_pos_iff.2 (hfitting.1.redacted_ne_nil S w)) _

/-! ## What the lines become -/

def assigned (assignment argument : Text) : Pair := ⟨.hyphens 0, ['a'], some ⟨assignment, argument⟩⟩

theorem isOption_a : IsOption ['a'] :=
  ⟨by simp, List.all_eq_true.1 (by decide), stops_cons.2 (by decide)⟩

theorem fits_assigned {a x : Text} (hassignment : IsAssignment a) (hargument : IsArgument x)
    (hunequal : '=' ∉ a → x.head? ≠ some '=')
    (hunmarked : a.getLast? ≠ some '=' → startsPair x = false) (hends : EndsArgument x rest) :
    (Piece.pair (assigned a x)).Fits .opening rest := by
  refine ⟨⟨isOption_a, ?_, ?_⟩, trivial, hends⟩
  · intro b hb
    obtain rfl : ⟨a, x⟩ = b := Option.some.inj hb
    exact ⟨hassignment, hargument, hunequal, hunmarked⟩
  · rintro ⟨-, hoption, -⟩
    exact absurd (List.cons.inj hoption).1 (by decide)

theorem isAssignment_blank : IsAssignment [' '] := Or.inr ⟨by simp, by simp [isPad]⟩

theorem redactLine_assigned {a x : Text} {behind : List Piece}
    (hfits : (Piece.pair (assigned a x)).Fits .opening (flatten behind))
    (hbehind : Fitting .inside behind) (w : Text) :
    redactLine everything w ((assigned a x).text ++ flatten behind) =
      (assigned a w).text ++ behind.flatMap (Piece.redacted everything w) := by
  have hfitting : Fitting .opening (.pair (assigned a x) :: behind) := ⟨hfits, hbehind⟩
  have hscan := scanFrom_flatten hfitting
  rw [flatten_cons] at hscan
  rw [redactLine, scan, ← Piece.text, hscan]
  rfl

theorem isRun_letter {c : Char} (hink : isInk c = true) (hquote : c ≠ '"') : IsRun [c] :=
  ⟨by simp, by simpa using hink, by simpa using hquote⟩

theorem endsArgument_run (hv : IsRun v) (h : Stops isInk rest) : EndsArgument v rest :=
  ⟨h, fun hopen => absurd hopen (not_isOpenQuote_of_isRun hv)⟩

theorem isRun_x : IsRun ['x'] := isRun_letter (by decide) (by decide)

theorem isRun_y : IsRun ['y'] := isRun_letter (by decide) (by decide)

/-- A word that is no pair, behind a blank. -/
def wordBehind : List Piece := [.gap [' '], .word ['y']]

theorem fitting_wordBehind : Fitting .inside wordBehind :=
  ⟨⟨by simp, by decide, stops_cons.2 (by decide)⟩,
    ⟨by simp, List.all_eq_true.1 (by decide), by simp [flatten], by decide⟩, trivial⟩

theorem redactLine_equals (w : Text) :
    redactLine everything w "--a=x".toList = flatten [.pair (assigned ['='] w)] := by
  have hbehind : Fitting .inside [] := trivial
  exact redactLine_assigned (fits_assigned isAssignment_equals (Or.inl isRun_x) (by simp) (by simp)
    (endsArgument_run isRun_x stops_nil)) hbehind w

theorem redactLine_equals_word (w : Text) :
    redactLine everything w "--a=x y".toList =
      flatten (.pair (assigned ['='] w) :: wordBehind) :=
  redactLine_assigned (fits_assigned isAssignment_equals (Or.inl isRun_x) (by simp) (by simp)
    (endsArgument_run isRun_x (stops_cons.2 (by decide)))) fitting_wordBehind w

theorem redactLine_blank_word (w : Text) :
    redactLine everything w "--a x y".toList =
      flatten (.pair (assigned [' '] w) :: wordBehind) :=
  redactLine_assigned (fits_assigned isAssignment_blank (Or.inl isRun_x) (by simp) (by decide)
    (endsArgument_run isRun_x (stops_cons.2 (by decide)))) fitting_wordBehind w

theorem read?_blank_of_startsPair {t : Text} (h : startsPair t = true) :
    Binding.read? (' ' :: t) = none := by
  have hhead := head?_of_startsPair h
  have hassignment : readAssignment? (' ' :: t) = some ([' '], t) := by
    refine readAssignment?_eq_some_iff.2
      ⟨rfl, Or.inr ⟨by simp, by simp [isPad]⟩, fun c hc => ?_, by simp [hhead]⟩
    rw [hhead] at hc
    obtain rfl : '-' = c := Option.some.inj hc
    decide
  refine Binding.read?_eq_none_iff.2 fun a r har => Or.inr ?_
  obtain ⟨rfl, rfl⟩ := Prod.mk.inj (Option.some.inj (hassignment.symm.trans har))
  exact ⟨by simp, h⟩

/-- An option stands alone if another pair follows. -/
def alone : List Piece := [.pair ⟨.hyphens 0, ['a'], none⟩, .gap [' ']]

theorem fitting_alone {after : List Piece} (hp : p.WellFormed) (hmarked : p.marker ≠ .bare)
    (hends : p.Ends (flatten after)) (hafter : Fitting .inside after) :
    Fitting .opening (alone ++ .pair p :: after) := by
  have hstart := (Pair.startsPair_text hp hends).2 hmarked
  have hunbound : Pair.Ends ⟨.hyphens 0, ['a'], none⟩ (' ' :: (p.text ++ flatten after)) :=
    ⟨stops_cons.2 (by decide), read?_blank_of_startsPair hstart⟩
  exact ⟨⟨⟨isOption_a, by simp, by simp⟩, trivial, hunbound⟩,
    ⟨by simp, by decide, hp.stops_isSpace _⟩, ⟨hp, hmarked, hends⟩, hafter⟩

theorem redactLine_forwarding (w : Text) :
    redactLine everything w "--a --J=x".toList = "--a --J=".toList ++ w := by
  let p : Pair := ⟨.hyphens 0, ['J'], some ⟨['='], ['x']⟩⟩
  have hp : p.WellFormed := by
    refine ⟨⟨by simp [p], List.all_eq_true.1 (by decide), stops_cons.2 (by decide)⟩, ?_, ?_⟩
    · intro b hb
      obtain rfl : ⟨['='], ['x']⟩ = b := Option.some.inj hb
      exact ⟨isAssignment_equals, Or.inl isRun_x, by simp, by simp⟩
    · simp [p]
  have hends : p.Ends (flatten []) := endsArgument_run isRun_x stops_nil
  have hfitting := fitting_alone hp (by simp [p]) hends trivial
  have hscan : scan "--a --J=x".toList = alone ++ [.pair p] := scanFrom_flatten hfitting
  rw [redactLine, hscan]
  simp [alone, p, Piece.redacted, Piece.text, Pair.isHidden, everything, Pair.withArgument,
    Pair.text, Marker.text, Binding.text]

/-! ## Tokens that do not stand -/

/-- The second time, something of another length than the token is taken for the argument. -/
theorem not_stableOn_of_assigned {a x : Text} {behind : List Piece}
    (hfits : (Piece.pair (assigned a x)).Fits .opening (flatten behind))
    (hbehind : Fitting .inside behind)
    (honce : redactLine everything w line = (assigned a x).text ++ flatten behind)
    (hlength : w.length + (behind.flatMap (Piece.redacted everything w)).length ≠
      x.length + (flatten behind).length) :
    ¬ StableOn everything w line := by
  have hfitting : Fitting .opening ([] ++ .pair (assigned a x) :: behind) := ⟨hfits, hbehind⟩
  exact not_stableOn_of_length hfitting honce rfl rfl hlength

/-- Without a token, the word behind the pair is taken for the argument. -/
theorem not_stableOn_nil : ¬ StableOn everything [] "--a=x y".toList := by
  have hassignment : IsAssignment ['=', ' '] := Or.inl ⟨[], [' '], by simp, by simp [isPad], rfl⟩
  have hfits : (Piece.pair (assigned ['=', ' '] ['y'])).Fits .opening (flatten []) :=
    fits_assigned hassignment (Or.inl isRun_y) (by simp) (by decide)
      (endsArgument_run isRun_y stops_nil)
  exact not_stableOn_of_assigned hfits trivial (redactLine_equals_word []) (by simp)

/-- Whitespace in a token ends the argument that the token was put in the place of. -/
theorem not_stableOn_of_rest {c : Text} (hc : IsArgument c) (hends : EndsArgument c v)
    (hv : v ≠ []) : ¬ StableOn everything (c ++ v) "--a=x".toList := by
  have hflatten : flatten (scanFrom .inside v) = v := flatten_scanFrom _ _
  have hfits : (Piece.pair (assigned ['='] c)).Fits .opening (flatten (scanFrom .inside v)) := by
    rw [hflatten]
    exact fits_assigned isAssignment_equals hc (by simp) (by simp) hends
  refine not_stableOn_of_assigned hfits (fitting_scanFrom _ _) ?_ ?_
  · rw [redactLine_equals, hflatten]
    simp [Piece.text, assigned, Pair.text, Binding.text]
  · have hpos := length_redacted_scanFrom_pos .inside hv everything (c ++ v)
    rw [hflatten, List.length_append]
    omega

/-- A quote left open takes in the word behind it. -/
theorem not_stableOn_of_open {a body : Text} (hassignment : IsAssignment a)
    (hequals : a.getLast? = some '=') (hbody : ∀ c ∈ body, isUnquoted c = true)
    (honce : redactLine everything w line =
      flatten (.pair (assigned a ('"' :: body)) :: wordBehind))
    (hlength : w.length < body.length + 3) : ¬ StableOn everything w line := by
  have hopen : IsOpenQuote ('"' :: (body ++ " y".toList)) := by
    refine ⟨body ++ " y".toList, fun c hc => ?_, rfl⟩
    rcases List.mem_append.1 hc with hc | hc
    · exact hbody c hc
    · exact List.all_eq_true.1 (by decide : (" y".toList.all isUnquoted) = true) c hc
  have hfits : (Piece.pair (assigned a ('"' :: (body ++ " y".toList)))).Fits .opening
      (flatten []) :=
    fits_assigned hassignment (Or.inr (Or.inr hopen)) (by simp) (fun h => absurd hequals h)
      ⟨stops_nil, fun _ => rfl⟩
  refine not_stableOn_of_assigned hfits trivial (honce.trans ?_) ?_
  · simp [Piece.text, assigned, Pair.text, Binding.text, wordBehind]
  · have hlonger : ('"' :: (body ++ " y".toList)).length = body.length + 3 := by simp
    rw [hlonger]
    simp only [List.flatMap_nil, flatten_nil, List.length_nil]
    omega

theorem isArgument_of_isInk (hne : v ≠ []) (hink : ∀ c ∈ v, isInk c = true) : IsArgument v := by
  have hread : readArgument? v ≠ none := by
    rw [ne_eq, readArgument?_eq_none_iff]
    obtain ⟨c, k, rfl⟩ := List.exists_cons_of_ne_nil hne
    simp [hink c (by simp)]
  obtain ⟨⟨a, rest⟩, ha⟩ := Option.ne_none_iff_exists'.1 hread
  obtain ⟨rfl, hargument, hstops, -⟩ := readArgument?_eq_some_iff.1 ha
  cases rest with
  | nil => rwa [List.append_nil]
  | cons c k => exact absurd (hink c (by simp)) (by simpa using hstops)

theorem not_stableOn_equals : ¬ StableOn everything ['='] "--a x y".toList := by
  have hassignment : IsAssignment [' ', '=', ' '] :=
    Or.inl ⟨[' '], [' '], by simp [isPad], by simp [isPad], rfl⟩
  have hfits : (Piece.pair (assigned [' ', '=', ' '] ['y'])).Fits .opening (flatten []) :=
    fits_assigned hassignment (Or.inl isRun_y) (by simp) (by decide)
      (endsArgument_run isRun_y stops_nil)
  have hbehind : Fitting .inside [] := trivial
  have hagain := redactLine_assigned hfits hbehind ['=']
  intro hstable
  rw [StableOn, redactLine_blank_word] at hstable
  exact absurd (hagain.symm.trans hstable) (by decide)

/-- An equals sign at the start of a token is taken for the assignment, and the rest of the token,
or else the word behind it, for the argument. -/
theorem not_stableOn_of_equals (hw : IsRun w) (hequals : w.head? = some '=') :
    ¬ StableOn everything w "--a x y".toList := by
  obtain ⟨u, rfl⟩ := List.head?_eq_some_iff.1 hequals
  have hassignment : IsAssignment [' ', '='] := Or.inl ⟨[' '], [], by simp [isPad], by simp, rfl⟩
  have honce : redactLine everything ('=' :: u) "--a x y".toList =
      flatten (.pair (assigned [' ', '='] u) :: wordBehind) := by
    rw [redactLine_blank_word]
    simp [Piece.text, assigned, Pair.text, Binding.text]
  by_cases hu : u = []
  · subst hu
    exact not_stableOn_equals
  by_cases hopen : IsOpenQuote u
  · obtain ⟨body, hbody, rfl⟩ := hopen
    exact not_stableOn_of_open hassignment rfl hbody honce (by simp)
  · have hargument := isArgument_of_isInk hu fun c hc => hw.2.1 c (by simp [hc])
    have hends : EndsArgument u (flatten wordBehind) :=
      ⟨stops_cons.2 (by decide), fun h => absurd h hopen⟩
    have hfits := fits_assigned hassignment hargument (by simp) (by simp) hends
    refine not_stableOn_of_assigned hfits fitting_wordBehind honce ?_
    simp [wordBehind, Piece.redacted, Piece.text]

theorem startsPair_forwarded (k : Text) :
    startsPair ("--J=-D".toList ++ k) = startsPair ("-D".toList ++ k) := by
  cases k <;> rfl

/-- A token that completes the longest marker hides its pair from the option in front of it. -/
theorem not_stableOn_of_unforwarded (hw : IsRun w) (hunmarked : startsPair w = false)
    (hforwarded : ['-', 'D'] <+: w) : ¬ StableOn everything w "--a --J=x".toList := by
  obtain ⟨k, rfl⟩ := hforwarded
  have hrun : IsRun ("--J=-D".toList ++ k) := by
    refine ⟨by simp, fun c hc => ?_, by simp⟩
    rcases List.mem_append.1 hc with hc | hc
    · exact List.all_eq_true.1 (by decide : ("--J=-D".toList.all isInk) = true) c hc
    · exact hw.2.1 c (by simp [hc])
  have hfits : (Piece.pair (assigned [' '] ("--J=-D".toList ++ k))).Fits .opening (flatten []) :=
    fits_assigned isAssignment_blank (Or.inl hrun) (by simp)
      (fun _ => (startsPair_forwarded k).trans hunmarked) (endsArgument_run hrun stops_nil)
  refine not_stableOn_of_assigned hfits trivial ?_ ?_
  · rw [redactLine_forwarding]
    simp [assigned, Pair.text, Binding.text, Marker.text]
  · simp

/-- An option that ends in front of a blank or an equals sign finds an argument there. -/
theorem read?_ne_none_of_word {u : Text} (hink : ∀ c ∈ u, isInk c = true)
    (hequals : u = [] ∨ u.head? = some '=') : Binding.read? (u ++ " y".toList) ≠ none := by
  rcases hequals with rfl | hequals
  · decide
  · obtain ⟨k, rfl⟩ := List.head?_eq_some_iff.1 hequals
    cases k with
    | nil => decide
    | cons c k =>
      have hc : isInk c = true := hink c (by simp)
      have hassignment : readAssignment? ('=' :: c :: k ++ " y".toList) =
          some (['='], c :: k ++ " y".toList) :=
        readAssignment?_eq_some_iff.2
          ⟨rfl, isAssignment_equals, stops_cons.2 (stops_isPad_of_isInk hc), by simp⟩
      intro hnone
      rcases Binding.read?_eq_none_iff.1 hnone _ _ hassignment with hstops | ⟨hlast, -⟩
      · rw [List.cons_append, stops_cons, hc] at hstops
        exact Bool.false_ne_true hstops.symm
      · exact hlast rfl

/-- Behind a token without quotes that starts like a pair, a word is taken for its argument. -/
theorem exists_bound_pair (hw : IsRun w) (hquotes : '"' ∉ w) (hstart : startsPair w = true) :
    ∃ (q : Pair) (b : Binding) (rest : Text), q.binding = some b ∧
      w ++ " y".toList = q.text ++ rest ∧ q.WellFormed ∧ q.marker ≠ .bare ∧ q.Ends rest := by
  have hword : Stops isInk " y".toList := stops_cons.2 (by decide)
  have hfound : Pair.read? false (w ++ " y".toList) ≠ none := by
    rw [ne_eq, Pair.read?_eq_none_iff, startsPair_append hword, hstart]
    simp
  obtain ⟨⟨q, rest⟩, hq⟩ := Option.ne_none_iff_exists'.1 hfound
  obtain ⟨htext, hwf, hbare, hends⟩ := Pair.read?_eq_some_iff.1 hq
  have hmarked : q.marker ≠ .bare := fun hm => Bool.false_ne_true (hbare hm)
  cases hb : q.binding with
  | some b => exact ⟨q, b, rest, hb, htext, hwf, hmarked, hends⟩
  | none =>
    exfalso
    obtain ⟨hstops, hnone⟩ : Stops isOptionChar rest ∧ Binding.read? rest = none := by
      simpa [Pair.Ends, hb] using hends
    have hink : ∀ c ∈ q.text, isInk c = true := by
      intro c hc
      rw [Pair.text, hb, Option.map_none, Option.getD_none, List.append_nil] at hc
      rcases List.mem_append.1 hc with hc | hc
      · exact Marker.isInk_of_mem_text hc
      · exact isInk_of_isOptionChar (hwf.option.chars c hc)
    rcases List.append_eq_append_iff.1 htext with ⟨k, hk, hrest⟩ | ⟨k, hk, hrest⟩
    · have hk' : k = [] := by
        cases k with
        | nil => rfl
        | cons c k =>
          obtain rfl : ' ' = c := (List.cons.inj hrest).1
          exact absurd (hink ' ' (by simp [hk])) (by decide)
      rw [hk', List.nil_append] at hrest
      exact read?_ne_none_of_word (u := []) (by simp) (Or.inl rfl) (hrest ▸ hnone)
    · have hkink : ∀ c ∈ k, isInk c = true := fun c hc => hw.2.1 c (by simp [hk, hc])
      have hequals : k = [] ∨ k.head? = some '=' := by
        cases k with
        | nil => exact Or.inl rfl
        | cons c k =>
          rw [hrest, List.cons_append, stops_cons] at hstops
          have hspace : Text.isSpace c = false := by simpa [isInk] using hkink c (by simp)
          have hquote : c ≠ '"' := by
            rintro rfl
            exact hquotes (by simp [hk])
          obtain rfl : c = '=' := by simpa [isOptionChar, hspace, hquote] using hstops
          exact Or.inr rfl
      exact read?_ne_none_of_word hkink hequals (hrest ▸ hnone)

theorem two_le_length_text {m : Marker} (h : m ≠ .bare) : 2 ≤ m.text.length := by
  cases m with
  | bare => exact absurd rfl h
  | property => decide
  | forwarded => decide
  | hyphens extra => simp [Marker.text]

/-- A token that starts like a pair is taken for the next pair, with an argument from behind it. -/
theorem not_stableOn_of_startsPair (hw : IsRun w) (hquotes : '"' ∉ w)
    (hstart : startsPair w = true) : ¬ StableOn everything w "--a x y".toList := by
  obtain ⟨q, b, rest, hb, htext, hwf, hmarked, hends⟩ := exists_bound_pair hw hquotes hstart
  have hflatten : flatten (scanFrom .inside rest) = rest := flatten_scanFrom _ _
  have hfitting : Fitting .opening (alone ++ .pair q :: scanFrom .inside rest) :=
    fitting_alone hwf hmarked (by rwa [hflatten]) (fitting_scanFrom _ _)
  have honce : redactLine everything w "--a x y".toList =
      flatten (alone ++ .pair q :: scanFrom .inside rest) := by
    rw [redactLine_blank_word, flatten_append, flatten_cons (.pair q), hflatten, Piece.text,
      ← htext]
    simp [alone, Piece.text, assigned, Pair.text, Binding.text, wordBehind]
  refine not_stableOn_of_length hfitting honce rfl hb ?_
  -- The argument is shorter than the token by the marker, the option and the assignment.
  have hlength := congrArg List.length htext
  rw [List.length_append, List.length_append, q.text_eq_stem_append, List.length_append] at hlength
  have hstem : 3 ≤ q.stem.length := by
    have hmarker := two_le_length_text hmarked
    have hoption := List.length_pos_iff.2 hwf.option.ne_nil
    simp only [Pair.stem, List.length_append]
    omega
  have hargument : q.argument?.getD [] = b.argument := by simp [Pair.argument?, hb]
  rw [hargument] at hlength
  rw [hflatten]
  have hy : " y".toList.length = 2 := rfl
  omega

/-- A token that is left alone in the four lines stands for an argument wherever it is put. -/
theorem stands_of_probes (hspace : Stops Text.isSpace w) (hquotes : startsPair w = true → '"' ∉ w)
    (h : ∀ line ∈ probes, StableOn everything w line) : Stands w := by
  have hne : w ≠ [] := by
    rintro rfl
    exact not_stableOn_nil (h _ (by simp [probes]))
  have hink : ¬ Stops isInk w := by
    obtain ⟨c, k, rfl⟩ := List.exists_cons_of_ne_nil hne
    simpa [isInk] using hspace
  obtain ⟨⟨c, v⟩, hread⟩ := Option.ne_none_iff_exists'.1 (mt readArgument?_eq_none_iff.1 hink)
  obtain ⟨hw, hargument, hends⟩ := readArgument?_eq_some_iff.1 hread
  have hv : v = [] := by
    by_contra hv
    exact not_stableOn_of_rest hargument hends hv (hw ▸ h _ (by simp [probes]))
  obtain rfl : w = c := by rw [hw, hv, List.append_nil]
  rcases hargument with hrun | hclosed | hopen
  · have hunmarked : startsPair w = false := by
      by_contra hstart
      have hstart : startsPair w = true := by simpa using hstart
      exact not_stableOn_of_startsPair hrun (hquotes hstart) hstart (h _ (by simp [probes]))
    exact ⟨Or.inl hrun,
      fun hequals => not_stableOn_of_equals hrun hequals (h _ (by simp [probes])), hunmarked,
      fun hforwarded => not_stableOn_of_unforwarded hrun hunmarked hforwarded
        (h _ (by simp [probes]))⟩
  · have hhead : w.head? = some '"' := by
      obtain ⟨body, tail, -, -, rfl⟩ := hclosed
      rfl
    refine ⟨Or.inr hclosed, by simp [hhead], ?_, ?_⟩
    · by_contra hstart
      have hhyphen := head?_of_startsPair (by simpa using hstart)
      simp [hhead] at hhyphen
    · rintro ⟨k, rfl⟩
      simp at hhead
  · -- The quote that the token leaves open takes in what stands behind the token.
    obtain ⟨body, hbody, rfl⟩ := hopen
    exact absurd (h _ (by simp [probes])) (not_stableOn_of_open isAssignment_equals rfl hbody
      (redactLine_equals_word _) (by simp))

end Gatekeeper.Redaction
