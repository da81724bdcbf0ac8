import Gatekeeper.Proofs.Redaction.Coverage

/-!
# The grammar of a pair

A text is one pair if it is made of a sign, an option, and perhaps an assignment with an argument
(`Parts.Grammatical`); which of them the readers try first, and how far each of them reads, is not
part of that. Main statement: a text is read as a whole exactly if it is made so, in the only way in
which it is, and the scan of the text as a line finds the same pair (`reads_ofText?`).
-/

namespace Gatekeeper.Redaction

variable {t : Text} {p : Pair}

/-- What a marker is written as; nothing stands for no marker. -/
def IsSign (m : Text) : Prop :=
  m = [] ∨ m = "-D".toList ∨ m = "--J=-D".toList ∨ (2 ≤ m.length ∧ ∀ c ∈ m, c = '-')

/-- An option stands behind the longest sign that the text starts with. -/
def StartsMarkedOption (t : Text) : Prop :=
  ∃ m c rest, m ≠ [] ∧ IsSign m ∧ t = m ++ c :: rest ∧
    (∀ m', IsSign m' → m' <+: t → m'.length ≤ m.length) ∧ isOptionStart c = true

structure Parts where
  sign : Text
  option : Text
  binding : Option Binding
  deriving DecidableEq

def Parts.text (x : Parts) : Text :=
  x.sign ++ x.option ++ (x.binding.map Binding.text).getD []

/-- An argument behind blanks alone is neither an equals sign nor another pair, and `--J=-D` is no
assignment to the option `J`. -/
structure Parts.Grammatical (x : Parts) : Prop where
  sign : IsSign x.sign
  option : IsOption x.option
  assignment : ∀ b ∈ x.binding, IsAssignment b.assignment
  argument : ∀ b ∈ x.binding, IsArgument b.argument
  unequal : ∀ b ∈ x.binding, '=' ∉ b.assignment → b.argument.head? ≠ some '='
  unmarked : ∀ b ∈ x.binding, (∃ c ∈ b.assignment.getLast?, isPad c = true) →
    ¬ StartsMarkedOption b.argument
  unforwarded : ¬ (x.sign = "--".toList ∧ x.option = "J".toList ∧
    ∃ b ∈ x.binding, b.assignment = "=".toList ∧ "-D".toList <+: b.argument)

def Pair.parts (p : Pair) : Parts := ⟨p.marker.text, p.option, p.binding⟩

/-- Reading a text as one pair, by its parts, beside what the scan of it finds. -/
structure ReadsAsPair (t : Text) : Prop where
  accepts : (∃ p, Pair.ofText? t = some p) ↔ ∃ x : Parts, x.Grammatical ∧ x.text = t
  returns : ∀ p, Pair.ofText? t = some p ↔ p.parts.Grammatical ∧ p.parts.text = t
  unique : ∀ x y : Parts, x.Grammatical → y.Grammatical → x.text = t → y.text = t → x = y
  scans : ∀ p, Pair.ofText? t = some p ↔ findAll t = [⟨p, 0⟩] ∧ p.text = t
  whole : ∀ f ∈ findAll t, f.start = 0 → f.stop = t.length → Pair.ofText? t = some f.pair
  rereads : ∀ f ∈ findAll t, Pair.ofText? f.pair.text = some f.pair

/-! ## Signs -/

theorem isSign_text (m : Marker) : IsSign m.text := by
  cases m with
  | bare => exact Or.inl rfl
  | property => exact Or.inr (Or.inl rfl)
  | forwarded => exact Or.inr (Or.inr (Or.inl rfl))
  | hyphens extra =>
    refine Or.inr (Or.inr (Or.inr ⟨by simp [Marker.text], fun c hc => ?_⟩))
    exact (List.mem_replicate.1 hc).2

theorem IsSign.exists_text_eq {m : Text} (h : IsSign m) : ∃ k : Marker, k.text = m := by
  rcases h with rfl | rfl | rfl | ⟨hlength, hhyphens⟩
  · exact ⟨.bare, rfl⟩
  · exact ⟨.property, rfl⟩
  · exact ⟨.forwarded, rfl⟩
  · refine ⟨.hyphens (m.length - 2), ?_⟩
    rw [Marker.text, Nat.sub_add_cancel hlength]
    exact (List.eq_replicate_of_mem hhyphens).symm

theorem Marker.text_eq_hyphens_iff {m : Marker} : m.text = "--".toList ↔ m = .hyphens 0 := by
  cases m with
  | bare => simp [text]
  | property => simp [text]
  | forwarded => simp [text]
  | hyphens extra =>
    constructor
    · intro h
      have hlength := congrArg List.length h
      simp only [text, List.length_replicate] at hlength
      have hextra : extra = 0 := Nat.add_right_cancel (hlength : extra + 2 = 0 + 2)
      rw [hextra]
    · intro h
      rw [h]
      rfl

theorem startsMarkedOption_iff : StartsMarkedOption t ↔ startsPair t = true := by
  rw [startsPair_iff]
  constructor
  · rintro ⟨m, c, rest, hne, hsign, ht, hlongest, hc⟩
    obtain ⟨k, rfl⟩ := hsign.exists_text_eq
    have hleads : k.Leads t (c :: rest) := by
      refine ⟨fun hk => hne (by rw [hk]; rfl), ht, fun m' hm' => ?_⟩
      exact hlongest _ (isSign_text m') hm'
    obtain ⟨-, hk⟩ := Marker.read?_eq_some_iff.1 (Marker.read?_eq_some_iff_leads.2 hleads)
    exact ⟨k, c, rest, ht, hk, hc⟩
  · rintro ⟨k, c, rest, ht, hk, hc⟩
    refine ⟨k.text, c, rest, ?_, isSign_text k, ht, ?_, hc⟩
    · obtain ⟨r, hr⟩ := Marker.exists_text_eq_cons hk.ne_bare
      simp [hr]
    · intro m' hm' hprefix
      obtain ⟨k', rfl⟩ := hm'.exists_text_eq
      rw [ht] at hprefix
      exact hk.length_le hprefix

/-! ## Bindings -/

theorem IsAssignment.ends {a : Text} (h : IsAssignment a) :
    a.getLast? ≠ some '=' ↔ ∃ c ∈ a.getLast?, isPad c = true := by
  have hequals : isPad '=' = false := by decide
  constructor
  · intro hne
    rcases h with ⟨l, r, -, hr, rfl⟩ | ⟨hnil, hpads⟩
    · rcases List.eq_nil_or_concat r with rfl | ⟨k, c, rfl⟩
      · simp at hne
      · have hlast : (l ++ '=' :: k.concat c).getLast? = some c := by
          rw [List.concat_eq_append, ← List.cons_append, ← List.append_assoc,
            List.getLast?_concat]
        exact ⟨c, hlast, hr c (by simp)⟩
    · obtain ⟨k, c, rfl⟩ := (List.eq_nil_or_concat a).resolve_left hnil
      exact ⟨c, by simp, hpads c (by simp)⟩
  · rintro ⟨c, hc, hpad⟩ hlast
    rw [hlast, Option.mem_some_iff] at hc
    rw [← hc, hequals] at hpad
    exact Bool.false_ne_true hpad

namespace Pair

theorem grammatical_parts_iff : p.parts.Grammatical ↔ p.WellFormed := by
  constructor
  · intro h
    refine ⟨h.option, fun b hb => ⟨h.assignment b hb, h.argument b hb, h.unequal b hb, ?_⟩, ?_⟩
    · intro hlast
      have hstart := h.unmarked b hb ((h.assignment b hb).ends.1 hlast)
      simpa [startsMarkedOption_iff] using hstart
    · rw [← Marker.text_eq_hyphens_iff]
      exact h.unforwarded
  · intro h
    refine ⟨isSign_text _, h.option, fun b hb => (h.binding b hb).assignment,
      fun b hb => (h.binding b hb).argument, fun b hb => (h.binding b hb).unequal, ?_, ?_⟩
    · intro b hb hpad hstart
      have hmarked := (h.binding b hb).unmarked ((h.binding b hb).assignment.ends.2 hpad)
      rw [startsMarkedOption_iff.1 hstart] at hmarked
      exact Bool.false_ne_true hmarked.symm
    · have hunforwarded := h.unforwarded
      rw [← Marker.text_eq_hyphens_iff] at hunforwarded
      exact hunforwarded

theorem exists_parts_eq {x : Parts} (h : x.Grammatical) : ∃ p : Pair, p.parts = x := by
  obtain ⟨m, hm⟩ := h.sign.exists_text_eq
  exact ⟨⟨m, x.option, x.binding⟩, by rw [parts, hm]⟩

theorem ends_nil (p : Pair) : p.Ends [] := by
  unfold Ends
  cases p.binding with
  | none => exact ⟨by simp, rfl⟩
  | some b => exact ⟨by simp, fun _ => rfl⟩

theorem ofText?_eq_some_iff : ofText? t = some p ↔ p.WellFormed ∧ p.text = t := by
  have hread : ofText? t = some p ↔ read? true t = some (p, []) := by
    unfold ofText?
    split <;> simp_all
  rw [hread, read?_eq_some_iff, List.append_nil]
  constructor
  · rintro ⟨rfl, hwf, -, -⟩
    exact ⟨hwf, rfl⟩
  · rintro ⟨hwf, rfl⟩
    exact ⟨rfl, hwf, fun _ => rfl, p.ends_nil⟩

end Pair

/-! ## The scan of a pair -/

theorem wellFormed_of_found {f : Found} (h : f ∈ findAll t) : f.pair.WellFormed := by
  obtain ⟨before, after, hscan, -, -⟩ := exists_of_mem_findAll h
  have hfitting : Fitting .opening (scan t) := fitting_scanFrom .opening t
  rw [hscan] at hfitting
  obtain ⟨place, hfits⟩ := hfitting.exists_fits
  exact hfits.1

theorem scan_text_pair (h : p.WellFormed) : scan p.text = [.pair p] :=
  scanFrom_eq_iff.2 ⟨by simp [Piece.text], ⟨h, trivial, p.ends_nil⟩, trivial⟩

theorem findAll_text_pair (h : p.WellFormed) : findAll p.text = [⟨p, 0⟩] := by
  rw [findAll, scan_text_pair h]
  rfl

theorem text_eq_of_found_whole {f : Found} (h : f ∈ findAll t) (hstart : f.start = 0)
    (hstop : f.stop = t.length) : f.pair.text = t := by
  obtain ⟨before, after, -, hbefore, hline⟩ := exists_of_mem_findAll h
  have hnothing : flatten before = [] := List.length_eq_zero_iff.1 (hbefore.symm.trans hstart)
  rw [hnothing, List.nil_append] at hline
  have hlength := congrArg List.length hline
  rw [List.length_append] at hlength
  have hafter : flatten after = [] := by
    apply List.length_eq_zero_iff.1
    rw [Found.stop, hstart] at hstop
    omega
  rw [hline, hafter, List.append_nil]

/-- A text is read as a pair by what it is made of, and so is it found in a line. -/
theorem reads_ofText? (t : Text) : ReadsAsPair t where
  accepts := by
    constructor
    · rintro ⟨p, hp⟩
      obtain ⟨hwf, ht⟩ := Pair.ofText?_eq_some_iff.1 hp
      exact ⟨p.parts, Pair.grammatical_parts_iff.2 hwf, ht⟩
    · rintro ⟨x, hx, ht⟩
      obtain ⟨p, rfl⟩ := Pair.exists_parts_eq hx
      exact ⟨p, Pair.ofText?_eq_some_iff.2 ⟨Pair.grammatical_parts_iff.1 hx, ht⟩⟩
  returns := by
    intro p
    rw [Pair.grammatical_parts_iff]
    exact Pair.ofText?_eq_some_iff
  unique := by
    intro x y hx hy hxt hyt
    obtain ⟨p, rfl⟩ := Pair.exists_parts_eq hx
    obtain ⟨q, rfl⟩ := Pair.exists_parts_eq hy
    have hp := Pair.ofText?_eq_some_iff.2 ⟨Pair.grammatical_parts_iff.1 hx, hxt⟩
    have hq := Pair.ofText?_eq_some_iff.2 ⟨Pair.grammatical_parts_iff.1 hy, hyt⟩
    rw [Option.some.inj (hp.symm.trans hq)]
  scans := by
    intro p
    rw [Pair.ofText?_eq_some_iff]
    constructor
    · rintro ⟨hwf, rfl⟩
      exact ⟨findAll_text_pair hwf, rfl⟩
    · rintro ⟨hfound, ht⟩
      have hmem : ⟨p, 0⟩ ∈ findAll t := by simp [hfound]
      exact ⟨wellFormed_of_found hmem, ht⟩
  whole := by
    intro f hf hstart hstop
    exact Pair.ofText?_eq_some_iff.2
      ⟨wellFormed_of_found hf, text_eq_of_found_whole hf hstart hstop⟩
  rereads := by
    intro f hf
    exact Pair.ofText?_eq_some_iff.2 ⟨wellFormed_of_found hf, rfl⟩

/-- Read as `--`, `J`, `=` and `-D`, this would be a pair; but the marker takes all of it. -/
example : Pair.ofText? "--J=-D".toList = none := by decide +kernel

end Gatekeeper.Redaction
