import Gatekeeper.Proofs.Redaction.Position
import Gatekeeper.Proofs.Redaction.Secrecy

/-!
# Coverage of a line

A token of a line that looks like the start of a pair is a candidate. Main statement: the scan finds
a pair at every candidate, unless the token stands inside a quoted argument, and nowhere else
(`exists_mem_findAll_iff`). So on any text, a candidate can escape only behind a quote.
-/

namespace Gatekeeper.Redaction

variable {t u v rest : Text} {place : Place}

/-! ## The longest marker -/

namespace Marker

/-- `m` is the longest marker at the start of `t`, and `rest` stands behind it. -/
structure Leads (m : Marker) (t rest : Text) : Prop where
  marked : m ≠ .bare
  text : t = m.text ++ rest
  longest : ∀ m' : Marker, m'.text <+: t → m'.text.length ≤ m.text.length

theorem le_of_replicate_prefix {n k : Nat} (hrest : Stops isHyphen rest)
    (h : List.replicate k '-' <+: List.replicate n '-' ++ rest) : k ≤ n := by
  induction n generalizing k with
  | zero =>
    cases k with
    | zero => exact Nat.le_refl 0
    | succ k =>
      obtain ⟨r, hr⟩ := h
      simp only [List.replicate_zero, List.nil_append] at hr
      simp [← hr, List.replicate_succ, isHyphen] at hrest
  | succ n ih =>
    cases k with
    | zero => exact Nat.zero_le _
    | succ k =>
      rw [List.replicate_succ, List.replicate_succ, List.cons_append, List.cons_prefix_cons] at h
      exact Nat.succ_le_succ (ih h.2)

theorem IsLongest.length_le {m m' : Marker} (h : m.IsLongest rest)
    (hm' : m'.text <+: m.text ++ rest) : m'.text.length ≤ m.text.length := by
  cases m with
  | bare => exact h.elim
  | property => cases m' <;> simp_all [text, List.replicate_succ]
  | forwarded =>
    cases m' with
    | hyphens n => cases n <;> simp_all [text, List.replicate_succ]
    | _ => simp [text]
  | hyphens n =>
    obtain ⟨hstop, hforwarded⟩ := h
    cases m' with
    | bare => simp [text]
    | property => simp [text]
    | forwarded =>
      cases n with
      | zero => exact absurd ⟨rfl, by simpa [text, List.replicate_succ] using hm'⟩ hforwarded
      | succ n => simp [text, List.replicate_succ] at hm'
    | hyphens k => simpa [text] using le_of_replicate_prefix hstop hm'

theorem isLongest_of_length_le {m : Marker} (hm : m ≠ .bare)
    (h : ∀ m' : Marker, m'.text <+: m.text ++ rest → m'.text.length ≤ m.text.length) :
    m.IsLongest rest := by
  cases m with
  | bare => exact hm rfl
  | property => trivial
  | forwarded => trivial
  | hyphens n =>
    refine ⟨fun c hc => ?_, ?_⟩
    · by_contra hhyphen
      obtain ⟨r, rfl⟩ := List.head?_eq_some_iff.1 hc
      have hc : c = '-' := by simpa [isHyphen] using hhyphen
      have hlonger : (hyphens (n + 1)).text <+: (hyphens n).text ++ c :: r :=
        ⟨r, by simp [text, hc, List.replicate_succ']⟩
      have hlength := h _ hlonger
      simp only [text, List.length_replicate] at hlength
      omega
    · rintro ⟨rfl, r, rfl⟩
      have hlength := h .forwarded ⟨r, rfl⟩
      simp [text] at hlength

theorem read?_eq_some_iff_leads {m : Marker} : read? t = some (m, rest) ↔ m.Leads t rest := by
  rw [read?_eq_some_iff]
  constructor
  · rintro ⟨rfl, h⟩
    exact ⟨h.ne_bare, rfl, fun m' hm' => h.length_le hm'⟩
  · rintro ⟨hm, rfl, h⟩
    exact ⟨rfl, isLongest_of_length_le hm h⟩

theorem read?_eq_none_iff : read? t = none ↔ ∀ m : Marker, m ≠ .bare → ¬ m.text <+: t := by
  constructor
  · rintro h m hm ⟨r, rfl⟩
    unfold read? at h
    split at h
    · simp at h
    · next hforwarded =>
      split at h
      · simp at h
      · next hproperty =>
        split at h
        · simp at h
        · next hhyphens =>
          cases m with
          | bare => exact hm rfl
          | property => simp [text, after?] at hproperty
          | forwarded => simp [text, after?] at hforwarded
          | hyphens n => simp [text, after?, List.replicate_succ] at hhyphens
  · intro h
    rw [Option.eq_none_iff_forall_ne_some]
    rintro ⟨m, r⟩ hm
    have hleads := read?_eq_some_iff_leads.1 hm
    exact h m hleads.marked ⟨r, hleads.text.symm⟩

end Marker

/-! ## Tokens and candidates -/

/-- A token starts at `i`: there is ink, at the start of the line or behind whitespace. -/
def IsTokenStart (t : Text) (i : Nat) : Prop :=
  (∃ c, t[i]? = some c ∧ isInk c = true) ∧
    (i = 0 ∨ ∃ c, t[i - 1]? = some c ∧ Text.isSpace c = true)

/-- What stands at `i` looks like the start of a pair: the longest marker in front of an option, or
an option without a marker where the line has been blank so far. -/
def IsCandidate (t : Text) (i : Nat) : Prop :=
  (∃ m c r, Marker.Leads m (t.drop i) (c :: r) ∧ isOptionStart c = true) ∨
    (Text.isBlank (t.take i) = true ∧
      (∀ m : Marker, m ≠ .bare → ¬ m.text <+: t.drop i) ∧
      ∃ c, t[i]? = some c ∧ isOptionStart c = true)

/-- Whether a position lies in the quoted argument of a pair, behind its first quote. -/
def Found.Quotes (f : Found) (i : Nat) : Prop :=
  (∃ a ∈ f.pair.argument?, IsClosedQuote a ∨ IsOpenQuote a) ∧ f.argumentStart < i ∧ i < f.stop

theorem isTokenStart_append :
    IsTokenStart (u ++ v) u.length ↔
      (∃ c ∈ v.head?, isInk c = true) ∧ (u = [] ∨ ∃ c ∈ u.getLast?, Text.isSpace c = true) := by
  have hhead : (u ++ v)[u.length]? = v.head? := by rw [← List.head?_drop, List.drop_left]
  rw [IsTokenStart, hhead, List.length_eq_zero_iff]
  rcases List.eq_nil_or_concat u with rfl | ⟨k, c, rfl⟩
  · simp
  · simp

theorem isCandidate_append :
    IsCandidate (u ++ v) u.length ↔
      startsPair v = true ∨
        (Text.isBlank u = true ∧ Marker.read? v = none ∧ ¬ Stops isOptionStart v) := by
  have hhead : (u ++ v)[u.length]? = v.head? := by rw [← List.head?_drop, List.drop_left]
  have hmarked : (∃ m c r, Marker.Leads m v (c :: r) ∧ isOptionStart c = true) ↔
      startsPair v = true := by
    rw [startsPair_iff]
    constructor
    · rintro ⟨m, c, r, hleads, hc⟩
      obtain ⟨ht, hlongest⟩ := Marker.read?_eq_some_iff.1 (Marker.read?_eq_some_iff_leads.2 hleads)
      exact ⟨m, c, r, ht, hlongest, hc⟩
    · rintro ⟨m, c, r, ht, hlongest, hc⟩
      have hread := Marker.read?_eq_some_iff.2 ⟨ht, hlongest⟩
      exact ⟨m, c, r, Marker.read?_eq_some_iff_leads.1 hread, hc⟩
  have hbare : ¬ Stops isOptionStart v ↔ ∃ c, v.head? = some c ∧ isOptionStart c = true := by
    simp [Stops]
  rw [IsCandidate, List.drop_left, List.take_left, hhead, hmarked, Marker.read?_eq_none_iff, hbare]

theorem startsPair_of_isCandidate (h : IsCandidate (u ++ v) u.length)
    (hu : Text.isBlank u = false) : startsPair v = true := by
  rcases isCandidate_append.1 h with hstart | ⟨hblank, _⟩
  · exact hstart
  · exact absurd (hu.symm.trans hblank) Bool.false_ne_true

theorem Pair.read?_eq_none_iff {bare : Bool} :
    Pair.read? bare v = none ↔
      startsPair v = false ∧ (bare = true → Marker.read? v = none → Stops isOptionStart v) := by
  unfold Pair.read? startsPair
  rcases Marker.read? v with _ | ⟨m, _ | ⟨c, r⟩⟩
  · cases bare <;> simp [Pair.readAfter?_eq_none_iff]
  · simp [Pair.readAfter?_eq_none_iff]
  · simp [Pair.readAfter?_eq_none_iff]

theorem Place.Follows.isCandidate_iff (h : place.Follows u) (houtside : place ≠ .inside) :
    IsCandidate (u ++ v) u.length ↔ place.pair? v ≠ none := by
  rw [isCandidate_append]
  cases place with
  | opening =>
    have hblank : Text.isBlank u = true := h
    by_cases hread : Marker.read? v = none <;> by_cases hstart : startsPair v = true <;>
      simp_all [pair?, Pair.read?_eq_none_iff]
  | boundary =>
    have hblank : Text.isBlank u = false := h.1
    simp [pair?, Pair.read?_eq_none_iff, hblank]
  | inside => exact absurd rfl houtside

/-! ## Inside a piece -/

theorem Marker.isInk_of_mem_text {m : Marker} {c : Char} (h : c ∈ m.text) : isInk c = true := by
  cases m with
  | bare => simp [text] at h
  | property =>
    have hall : ∀ c ∈ property.text, isInk c = true := List.all_eq_true.1 (by decide)
    exact hall c h
  | forwarded =>
    have hall : ∀ c ∈ forwarded.text, isInk c = true := List.all_eq_true.1 (by decide)
    exact hall c h
  | hyphens n =>
    rw [(List.mem_replicate.1 h).2]
    decide

namespace Pair

variable {p : Pair} {x y : Text}

/-- Whitespace inside a pair stands behind its option. -/
theorem WellFormed.exists_binding (h : p.WellFormed) (htext : p.text = x ++ y)
    (hx : ∃ c ∈ x.getLast?, Text.isSpace c = true) :
    ∃ b ∈ p.binding, ∃ k, k ≠ [] ∧ x = p.marker.text ++ p.option ++ k ∧ b.text = k ++ y := by
  obtain ⟨c, hc, hspace⟩ := hx
  have hink : c ∉ p.marker.text ++ p.option := by
    intro hmem
    have hink : isInk c = true := by
      rcases List.mem_append.1 hmem with hmarker | hoption
      · exact Marker.isInk_of_mem_text hmarker
      · exact isInk_of_isOptionChar (h.option.chars c hoption)
    simp [isInk, hspace] at hink
  have hcx : c ∈ x := List.mem_of_mem_getLast? hc
  rcases List.append_eq_append_iff.1 htext with ⟨k, hx, htail⟩ | ⟨k, hhead, _⟩
  · have hk : k ≠ [] := by
      rintro rfl
      rw [hx, List.append_nil] at hcx
      exact hink hcx
    cases hb : p.binding with
    | none =>
      rw [hb] at htail
      exact absurd (List.append_eq_nil_iff.1 htail.symm).1 hk
    | some b =>
      rw [hb] at htail
      exact ⟨b, rfl, k, hk, hx, htail⟩
  · rw [hhead] at hink
    exact absurd (List.mem_append_left k hcx) hink

end Pair

theorem IsAssignment.hyphen_not_mem {a : Text} (h : IsAssignment a) : '-' ∉ a := by
  have hpad : isPad '-' = false := by decide
  intro hmem
  rcases h with ⟨l, r, hl, hr, rfl⟩ | ⟨_, hpads⟩
  · rcases List.mem_append.1 hmem with hleft | hright
    · simp [hl '-' hleft] at hpad
    · rcases List.mem_cons.1 hright with hequals | hright
      · exact absurd hequals (by decide)
      · simp [hr '-' hright] at hpad
  · simp [hpads '-' hmem] at hpad

theorem IsArgument.isQuote_of_mem {a : Text} {c : Char} (h : IsArgument a) (hc : c ∈ a)
    (hspace : Text.isSpace c = true) : IsClosedQuote a ∨ IsOpenQuote a := by
  rcases h with hrun | hquoted
  · have hink := hrun.2.1 c hc
    simp [isInk, hspace] at hink
  · exact hquoted

namespace Binding

variable {b : Binding} {x y : Text}

/-- An argument behind whitespace was not refused, so it does not look like another pair. -/
theorem WellFormed.startsPair_argument (h : b.WellFormed) (hend : EndsArgument b.argument rest)
    (hlast : ∃ c ∈ b.assignment.getLast?, Text.isSpace c = true) :
    startsPair (b.argument ++ rest) = false := by
  rw [startsPair_append hend.1]
  apply h.unmarked
  intro hequals
  obtain ⟨c, hc, hspace⟩ := hlast
  have hc : c = '=' := by simpa [hequals] using hc.symm
  rw [hc] at hspace
  exact absurd hspace (by decide)

theorem WellFormed.quotes_of_startsPair (h : b.WellFormed) (hend : EndsArgument b.argument rest)
    (htext : b.text = x ++ y) (hx : ∃ c ∈ x.getLast?, Text.isSpace c = true)
    (hy : startsPair (y ++ rest) = true) :
    (IsClosedQuote b.argument ∨ IsOpenQuote b.argument) ∧ b.assignment.length < x.length := by
  have hbehind : ¬ (x = b.assignment ∧ y = b.argument) := by
    rintro ⟨rfl, rfl⟩
    rw [h.startsPair_argument hend hx] at hy
    exact Bool.false_ne_true hy
  rcases List.append_eq_append_iff.1 htext with ⟨z, rfl, hargument⟩ | ⟨z, hassignment, rfl⟩
  · -- The argument goes on where `x` ends.
    cases z with
    | nil => exact absurd ⟨List.append_nil _, hargument.symm⟩ hbehind
    | cons d z =>
      obtain ⟨c, hc, hspace⟩ := hx
      rw [List.getLast?_append_of_ne_nil _ (List.cons_ne_nil d z)] at hc
      have hmem : c ∈ b.argument := by
        rw [hargument]
        exact List.mem_append_left y (List.mem_of_mem_getLast? hc)
      exact ⟨h.argument.isQuote_of_mem hmem hspace, by simp⟩
  · -- The assignment goes on where `x` ends, and a pair would start there with a hyphen.
    cases z with
    | nil => exact absurd ⟨by simpa using hassignment.symm, List.nil_append _⟩ hbehind
    | cons d z =>
      have hd : d = '-' := by simpa using head?_of_startsPair hy
      have hmem : '-' ∈ b.assignment := by simp [hassignment, hd]
      exact absurd hmem h.assignment.hyphen_not_mem

end Binding

namespace Pair

variable {p : Pair} {x y : Text}

/-- Behind whitespace inside a pair, only a quoted argument can hold what looks like another. -/
theorem WellFormed.quotes_of_startsPair (h : p.WellFormed) (hends : p.Ends rest)
    (htext : p.text = x ++ y) (hx : ∃ c ∈ x.getLast?, Text.isSpace c = true)
    (hy : startsPair (y ++ rest) = true) :
    (∃ a ∈ p.argument?, IsClosedQuote a ∨ IsOpenQuote a) ∧ p.stem.length < x.length := by
  obtain ⟨b, hb, k, hk, rfl, hbinding⟩ := h.exists_binding htext hx
  rw [List.getLast?_append_of_ne_nil _ hk] at hx
  have hb : p.binding = some b := hb
  have hend : EndsArgument b.argument rest := by simpa only [Ends, hb] using hends
  obtain ⟨hquoted, hlength⟩ := (h.binding b hb).quotes_of_startsPair hend hbinding hx hy
  refine ⟨⟨b.argument, by simp [argument?, hb], hquoted⟩, ?_⟩
  simpa [stem, hb] using hlength

theorem WellFormed.isBlank_append (h : p.WellFormed) (htext : p.text = x ++ y) (hx : x ≠ [])
    (u : Text) : Text.isBlank (u ++ x) = false := by
  obtain ⟨c, k, hhead, hc⟩ := h.exists_text_eq_cons
  obtain ⟨d, x, rfl⟩ := List.exists_cons_of_ne_nil hx
  have hcd : c = d := (List.cons.inj (hhead.symm.trans htext)).1
  have hmem : c ∈ u ++ d :: x := by simp [hcd]
  exact isBlank_eq_false_of_isInk hmem (isInk_of_isOptionChar hc)

end Pair

/-! ## Every candidate -/

section

variable {line : Text} {before after : List Piece} {q : Piece}

theorem line_of_scan (h : scan line = before ++ q :: after) :
    line = flatten before ++ (q.text ++ flatten after) := by
  rw [← flatten_scan line, h, flatten_append, flatten_cons]

theorem isTokenStart_of_found {f : Found} (hf : f ∈ findAll line) : IsTokenStart line f.start := by
  obtain ⟨before, after, hscan, hstart, hline⟩ := exists_of_mem_findAll hf
  have hfitting := fitting_scanFrom .opening line
  rw [← scan, hscan] at hfitting
  obtain ⟨_, hwf, _, _⟩ := hfitting.exists_fits
  rw [hline, hstart, isTokenStart_append]
  constructor
  · obtain ⟨c, k, htext, hc⟩ := hwf.exists_text_eq_cons
    exact ⟨c, by simp [htext], isInk_of_isOptionChar hc⟩
  · have hspace := isSpace_getLast?_flatten hfitting
    cases hlast : (flatten before).getLast? with
    | none => exact Or.inl (List.getLast?_eq_none_iff.1 hlast)
    | some c => exact Or.inr ⟨c, rfl, hspace c hlast⟩

theorem isCandidate_of_found {f : Found} (hf : f ∈ findAll line) : IsCandidate line f.start := by
  obtain ⟨before, after, hscan, hstart, hline⟩ := exists_of_mem_findAll hf
  obtain ⟨place, hfollows, hwf, hallows, hends⟩ := exists_follows_of_scan hscan
  have houtside : place ≠ .inside := by
    rintro rfl
    exact hallows
  have hpair := Place.pair?_eq_some_iff.2 ⟨rfl, hwf, hallows, hends⟩
  rw [hline, hstart, hfollows.isCandidate_iff houtside, hpair]
  exact Option.some_ne_none _

theorem not_quotes_of_found {f g : Found} (hf : f ∈ findAll line) (hg : g ∈ findAll line) :
    ¬ (g.start < f.start ∧ g.Quotes f.start) := by
  rintro ⟨hlt, _, _, hstop⟩
  have hordered := stop_le_start hg hf hlt
  omega

theorem exists_pair_of_isCandidate (hscan : scan line = before ++ q :: after)
    (htoken : IsTokenStart line (flatten before).length)
    (hcandidate : IsCandidate line (flatten before).length) : ∃ p, q = .pair p := by
  obtain ⟨place, hfollows, hfits⟩ := exists_follows_of_scan hscan
  rw [line_of_scan hscan] at htoken hcandidate
  obtain ⟨⟨c, hc, hink⟩, hbefore⟩ := isTokenStart_append.1 htoken
  cases q with
  | pair p => exact ⟨p, rfl⟩
  | gap g =>
    obtain ⟨hne, hblank, _⟩ := hfits
    obtain ⟨d, g, rfl⟩ := List.exists_cons_of_ne_nil hne
    have hcd : d = c := by simpa [Piece.text] using hc
    have hspace : Text.isSpace d = true := List.all_eq_true.1 hblank d (by simp)
    simp [isInk, ← hcd, hspace] at hink
  | word w =>
    obtain ⟨hne, hwink, hstop, hpair⟩ := hfits
    have houtside : place ≠ .inside := by
      rintro rfl
      obtain ⟨d, hd, hdink⟩ := hfollows
      rcases hbefore with hnil | ⟨e, he, hspace⟩
      · simp [hnil] at hd
      · rw [Option.mem_def.1 hd] at he
        rw [← Option.some.inj he] at hspace
        simp [isInk, hspace] at hdink
    rw [hfollows.isCandidate_iff houtside] at hcandidate
    exact absurd ((Place.pair?_append_eq_none_iff hstop w).2 hpair) hcandidate

/-- Only a pair holds both ink and whitespace. -/
theorem Piece.Fits.exists_pair (h : q.Fits place rest) {c d : Char} (hc : c ∈ q.text)
    (hink : isInk c = true) (hd : d ∈ q.text) (hspace : Text.isSpace d = true) :
    ∃ p, q = .pair p := by
  cases q with
  | pair p => exact ⟨p, rfl⟩
  | gap g =>
    have hblank : Text.isSpace c = true := List.all_eq_true.1 h.2.1 c hc
    simp [isInk, hblank] at hink
  | word w =>
    have hword : isInk d = true := h.2.1 d hd
    simp [isInk, hspace] at hword

/-- Inside a piece, a candidate can only stand in a quoted argument. -/
theorem exists_quotes_of_isCandidate {x y : Text} (hscan : scan line = before ++ q :: after)
    (hq : q.text = x ++ y) (hx : x ≠ []) (hy : y ≠ [])
    (htoken : IsTokenStart line ((flatten before).length + x.length))
    (hcandidate : IsCandidate line ((flatten before).length + x.length)) :
    ∃ p, q = .pair p ∧
      Found.Quotes ⟨p, (flatten before).length⟩ ((flatten before).length + x.length) := by
  obtain ⟨_, _, hfits⟩ := exists_follows_of_scan hscan
  have hline : line = (flatten before ++ x) ++ (y ++ flatten after) := by
    rw [line_of_scan hscan, hq]
    simp
  rw [hline, ← List.length_append] at htoken hcandidate
  obtain ⟨⟨c, hc, hink⟩, hlast⟩ := isTokenStart_append.1 htoken
  obtain ⟨d, hd, hspace⟩ : ∃ d ∈ x.getLast?, Text.isSpace d = true := by
    rcases hlast with hnil | hlast
    · exact absurd (List.append_eq_nil_iff.1 hnil).2 hx
    · rwa [List.getLast?_append_of_ne_nil _ hx] at hlast
  have hcq : c ∈ q.text := by
    rw [List.head?_append_of_ne_nil _ hy] at hc
    rw [hq]
    exact List.mem_append_right x (List.mem_of_mem_head? hc)
  have hdq : d ∈ q.text := by
    rw [hq]
    exact List.mem_append_left y (List.mem_of_mem_getLast? hd)
  obtain ⟨p, rfl⟩ := hfits.exists_pair hcq hink hdq hspace
  obtain ⟨hwf, _, hends⟩ := hfits
  have hstart := startsPair_of_isCandidate hcandidate (hwf.isBlank_append hq hx _)
  obtain ⟨hquoted, hstem⟩ := hwf.quotes_of_startsPair hends hq ⟨d, hd, hspace⟩ hstart
  refine ⟨p, rfl, hquoted, ?_, ?_⟩
  · rw [Found.argumentStart_eq]
    exact Nat.add_lt_add_left hstem _
  · have hlength : p.text.length = x.length + y.length := by
      rw [show p.text = x ++ y from hq, List.length_append]
    have hpos := List.length_pos_iff.2 hy
    simp only [Found.stop]
    omega

end

/-- The scan finds a pair at every candidate that no quoted argument of an earlier pair holds, and
at such tokens only. -/
theorem exists_mem_findAll_iff (line : Text) (i : Nat) :
    (∃ f ∈ findAll line, f.start = i) ↔
      IsTokenStart line i ∧ IsCandidate line i ∧
        ¬ ∃ f ∈ findAll line, f.start < i ∧ f.Quotes i := by
  constructor
  · rintro ⟨f, hf, rfl⟩
    refine ⟨isTokenStart_of_found hf, isCandidate_of_found hf, ?_⟩
    rintro ⟨g, hg, hquotes⟩
    exact not_quotes_of_found hf hg hquotes
  · rintro ⟨htoken, hcandidate, hunquoted⟩
    have hlt : i < (flatten (scan line)).length := by
      obtain ⟨c, hc, _⟩ := htoken.1
      rw [flatten_scan]
      exact (List.getElem?_eq_some_iff.1 hc).1
    obtain ⟨before, q, after, hscan, hle, hlt⟩ := exists_piece_at hlt
    rcases Nat.eq_or_lt_of_le hle with rfl | hinside
    · obtain ⟨p, rfl⟩ := exists_pair_of_isCandidate hscan htoken hcandidate
      exact ⟨_, mem_findAll_of_scan hscan, rfl⟩
    · obtain ⟨n, rfl⟩ := Nat.exists_eq_add_of_le hle
      have hlength : (q.text.take n).length = n := by
        rw [List.length_take]
        omega
      have hx : q.text.take n ≠ [] := by
        apply List.ne_nil_of_length_pos
        omega
      have hy : q.text.drop n ≠ [] := by
        apply List.ne_nil_of_length_pos
        rw [List.length_drop]
        omega
      rw [← hlength] at htoken hcandidate
      obtain ⟨p, rfl, hquotes⟩ := exists_quotes_of_isCandidate hscan
        (List.take_append_drop n q.text).symm hx hy htoken hcandidate
      rw [hlength] at hquotes
      exact absurd ⟨_, mem_findAll_of_scan hscan, hinside, hquotes⟩ hunquoted

end Gatekeeper.Redaction
