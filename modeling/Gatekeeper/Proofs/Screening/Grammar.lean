import Gatekeeper.Proofs.Screening.Segments
import Gatekeeper.Screening.Screen
import Mathlib.Data.List.Infix
import Mathlib.Tactic.ByContra

/-!
# The language of patterns

A clause is spelled as a stem with its stars, behind a mark of exclamation if it rejects. Reading
inverts the spelling (`Clause.read?_eq_some_iff`). Main statement: a pattern is read if and only if
each of its full segments is spelled so, and its first segment that matches a name decides about
that name (`reads_ofPattern`).
-/

namespace Gatekeeper.Screening

variable {c : Clause} {name stem t : Text} {rejects : Bool} {v : Verdict}

def IsStem (stem : Text) : Prop :=
  ∀ c ∈ stem, Text.isSpace c = false ∧ c ≠ '/' ∧ c ≠ '=' ∧ c ≠ '*' ∧ c ≠ '!'

/-- What the parts of a clause have to be. Two stars stand behind a dot only, and something is left
of the clause without its mark of exclamation. -/
structure Clause.WellFormed (c : Clause) : Prop where
  stem : IsStem c.stem
  ne_nil : c.stem ++ c.stars.text ≠ []
  dot : c.stars = .two → ['.'] <:+ c.stem

def IsClause (t : Text) : Prop := ∃ c : Clause, c.WellFormed ∧ t = c.text

/-- One star behind a dot stands for a name without a dot; other stars stand for any text. -/
inductive Clause.Matches (c : Clause) : Text → Prop
  | exactly : c.stars = .none → Matches c c.stem
  | member {rest : Text} : c.stars = .one → ['.'] <:+ c.stem → '.' ∉ rest →
      Matches c (c.stem ++ rest)
  | lead {rest : Text} : c.stars = .one → ¬ ['.'] <:+ c.stem → Matches c (c.stem ++ rest)
  | below {rest : Text} : c.stars = .two → Matches c (c.stem ++ rest)

/-- The first of the segments that matches a name decides about it. -/
inductive Decides (name : Text) : List Text → Verdict → Prop
  | unmatched : Decides name [] .undecided
  | first {c : Clause} {later : List Text} : c.WellFormed → c.Matches name →
      Decides name (c.text :: later) (if c.rejects then .rejected else .allowed)
  | later {c : Clause} {later : List Text} {v : Verdict} : c.WellFormed → ¬ c.Matches name →
      Decides name later v → Decides name (c.text :: later) v

/-- How the full segments of a pattern are read, and what the screen that they make decides. -/
structure Reads (segments : List Text) (result : Except Fault Screen) : Prop where
  ok_iff : (∃ screen, result = .ok screen) ↔ ∀ t ∈ segments, IsClause t
  error_iff : ∀ fault, result = .error fault ↔
    ∃ before t later, segments = before ++ t :: later ∧ (∀ b ∈ before, IsClause b) ∧
      ¬ IsClause t ∧ fault = .malformedClause t ∧
      fault.message = some ("Malformed filter clause ".toList ++ Text.quoted t)
  decides : ∀ screen, result = .ok screen → ∀ (candidate : Candidate) (name : Text),
    candidate.elementName = some name → ∀ v, screen.verdict candidate = v ↔ Decides name segments v

/-! ## Stem and stars -/

theorem endsInDot_iff : endsInDot t = true ↔ ['.'] <:+ t := by
  rw [List.singleton_suffix_iff_getLast?_eq_some, endsInDot, decide_eq_true_iff]

theorem Stars.text_eq_replicate (s : Stars) :
    ∃ count ≤ 2, s.text = List.replicate count '*' := by
  cases s with
  | none => exact ⟨0, by omega, rfl⟩
  | one => exact ⟨1, by omega, rfl⟩
  | two => exact ⟨2, by omega, rfl⟩

/-- A name is its stem with a number of stars, when the stem ends in none. -/
theorem exists_stem (name : Text) : ∃ stem count, name = stem ++ List.replicate count '*' ∧
    stem.getLast? ≠ some '*' := by
  induction name using List.reverseRecOn with
  | nil => exact ⟨[], 0, rfl, by simp⟩
  | append_singleton name last ih =>
    by_cases hlast : last = '*'
    · obtain ⟨stem, count, hname, hstem⟩ := ih
      exact ⟨stem, count + 1, by rw [hname, hlast, List.replicate_succ', List.append_assoc], hstem⟩
    · exact ⟨name ++ [last], 0, by simp, by simpa using hlast⟩

theorem takeWhile_isStar_reverse (hstem : stem.getLast? ≠ some '*') (count : Nat) :
    (stem ++ List.replicate count '*').reverse.takeWhile isStar = List.replicate count '*' ∧
      (stem ++ List.replicate count '*').reverse.dropWhile isStar = stem.reverse := by
  have hstars : ∀ s ∈ List.replicate count '*', isStar s = true := by
    intro s hs
    simp [List.eq_of_mem_replicate hs, isStar]
  rw [List.reverse_append, List.reverse_replicate, List.takeWhile_append_of_pos hstars,
    List.dropWhile_append_of_pos hstars]
  cases hrev : stem.reverse with
  | nil => simp
  | cons last lead =>
    have hlast : last ≠ '*' := by
      intro heq
      rw [List.getLast?_eq_head?_reverse, hrev, heq] at hstem
      exact hstem rfl
    simp [isStar, hlast]

namespace Clause

/-- What is read of a name whose stem and stars are known. -/
theorem ofName?_append (hstem : stem.getLast? ≠ some '*') (rejects : Bool) (count : Nat) :
    ofName? rejects (stem ++ List.replicate count '*') =
      if stem.any fun c => isStar c || c = '!' then none
      else if count = 0 then if stem.isEmpty then none else some ⟨rejects, stem, .none⟩
      else if count = 1 then some ⟨rejects, stem, .one⟩
      else if count = 2 && endsInDot stem then some ⟨rejects, stem, .two⟩
      else none := by
  obtain ⟨htake, hdrop⟩ := takeWhile_isStar_reverse hstem count
  simp only [ofName?, htake, hdrop, List.length_replicate, List.reverse_reverse]

theorem any_isStar_eq_false_iff :
    (stem.any fun c => isStar c || c = '!') = false ↔ ∀ c ∈ stem, c ≠ '*' ∧ c ≠ '!' := by
  simp [List.any_eq_false, isStar]

theorem ofName?_eq_some_iff :
    ofName? rejects name = some c ↔ c.rejects = rejects ∧ name = c.stem ++ c.stars.text ∧
      (∀ s ∈ c.stem, s ≠ '*' ∧ s ≠ '!') ∧ name ≠ [] ∧ (c.stars = .two → ['.'] <:+ c.stem) := by
  constructor
  · intro h
    obtain ⟨stem, count, rfl, hstem⟩ := exists_stem name
    rw [ofName?_append hstem] at h
    by_cases hany : (stem.any fun c => isStar c || c = '!') = true
    · simp [hany] at h
    have hplain := any_isStar_eq_false_iff.1 (Bool.eq_false_iff.2 hany)
    rw [if_neg hany] at h
    match count with
    | 0 =>
      obtain ⟨hne, rfl⟩ : stem ≠ [] ∧ ⟨rejects, stem, .none⟩ = c := by simpa using h
      exact ⟨rfl, rfl, hplain, by simpa using hne, by simp⟩
    | 1 =>
      obtain rfl : ⟨rejects, stem, .one⟩ = c := by simpa using h
      exact ⟨rfl, rfl, hplain, by simp, by simp⟩
    | 2 =>
      obtain ⟨hdot, rfl⟩ : endsInDot stem = true ∧ ⟨rejects, stem, .two⟩ = c := by simpa using h
      exact ⟨rfl, rfl, hplain, by simp, fun _ => endsInDot_iff.1 hdot⟩
    | count + 3 => simp at h
  · rintro ⟨rfl, rfl, hplain, hne, hdot⟩
    have hlast : c.stem.getLast? ≠ some '*' := fun hl =>
      (hplain '*' (List.mem_of_getLast? hl)).1 rfl
    have hany := any_isStar_eq_false_iff.2 hplain
    obtain ⟨rejects, stem, stars⟩ := c
    cases stars with
    | none =>
      have hread := ofName?_append hlast rejects 0
      simp_all [Stars.text]
    | one =>
      have hread := ofName?_append hlast rejects 1
      simp_all [Stars.text]
    | two =>
      have hread := ofName?_append hlast rejects 2
      simp_all [Stars.text, endsInDot_iff]

/-! ## Reading a clause -/

theorem read?_eq (t : Text) :
    read? t =
      if t.any isForbidden then none
      else if ['!'] <+: t then ofName? true t.tail else ofName? false t := by
  unfold read?
  split
  · rfl
  · cases t with
    | nil => rfl
    | cons first name =>
      by_cases hfirst : first = '!'
      · simp [hfirst]
      · simp only [List.cons_prefix_cons, Ne.symm hfirst, false_and, if_false]
        split
        · next heq => exact absurd (List.cons.inj heq).1 hfirst
        · rfl

theorem isForbidden_eq_false_iff {s : Char} :
    isForbidden s = false ↔ Text.isSpace s = false ∧ s ≠ '/' ∧ s ≠ '=' := by
  simp [isForbidden, and_assoc]

namespace WellFormed

theorem any_isForbidden (h : c.WellFormed) : c.text.any isForbidden = false := by
  have hmark : isForbidden '!' = false := by decide
  have hstar : isForbidden '*' = false := by decide
  obtain ⟨count, _, hstars⟩ := c.stars.text_eq_replicate
  rw [List.any_eq_false]
  intro s hs
  rw [text, hstars, List.mem_append, List.mem_append] at hs
  rcases hs with (hs | hs) | hs
  · split at hs
    · simp [List.mem_singleton.1 hs, hmark]
    · simp at hs
  · have hstem := h.stem s hs
    simp [isForbidden_eq_false_iff.2 ⟨hstem.1, hstem.2.1, hstem.2.2.1⟩]
  · simp [List.eq_of_mem_replicate hs, hstar]

theorem mark_prefix_iff (h : c.WellFormed) : ['!'] <+: c.text ↔ c.rejects = true := by
  obtain ⟨rejects, stem, stars⟩ := c
  cases rejects with
  | true => simp [text]
  | false =>
    cases stem with
    | nil => cases stars <;> simp [text, Stars.text]
    | cons first stem =>
      have hfirst : first ≠ '!' := (h.stem first (by simp)).2.2.2.2
      simp [text, Ne.symm hfirst]

end WellFormed

/-- Reading inverts the spelling of well-formed clauses. -/
theorem read?_eq_some_iff : read? t = some c ↔ c.WellFormed ∧ t = c.text := by
  rw [read?_eq]
  constructor
  · intro h
    split at h
    · simp at h
    · next hany =>
      have hfree : ∀ s ∈ t, isForbidden s = false := by simpa using hany
      have hparts : t = c.text ∧ (∀ s ∈ c.stem, s ≠ '*' ∧ s ≠ '!') ∧
          c.stem ++ c.stars.text ≠ [] ∧ (c.stars = .two → ['.'] <:+ c.stem) := by
        split at h
        · next hmark =>
          obtain ⟨name, rfl⟩ := hmark
          obtain ⟨hrejects, hname, hplain, hne, hdot⟩ := ofName?_eq_some_iff.1 h
          simp only [List.singleton_append, List.tail_cons] at hname hne
          exact ⟨by simp [text, hrejects, hname], hplain, hname ▸ hne, hdot⟩
        · obtain ⟨hrejects, hname, hplain, hne, hdot⟩ := ofName?_eq_some_iff.1 h
          exact ⟨by simp [text, hrejects, hname], hplain, hname ▸ hne, hdot⟩
      obtain ⟨ht, hplain, hne, hdot⟩ := hparts
      refine ⟨⟨fun s hs => ?_, hne, hdot⟩, ht⟩
      have hs' : s ∈ t := by simp [ht, text, hs]
      obtain ⟨hspace, hslash, hequals⟩ := isForbidden_eq_false_iff.1 (hfree s hs')
      exact ⟨hspace, hslash, hequals, hplain s hs⟩
  · rintro ⟨h, rfl⟩
    have hplain : ∀ s ∈ c.stem, s ≠ '*' ∧ s ≠ '!' := fun s hs => (h.stem s hs).2.2.2
    rw [h.any_isForbidden, if_neg Bool.false_ne_true]
    by_cases hrejects : c.rejects = true
    · have htail : c.text.tail = c.stem ++ c.stars.text := by simp [text, hrejects]
      rw [if_pos (h.mark_prefix_iff.2 hrejects), ofName?_eq_some_iff, htail]
      exact ⟨hrejects, rfl, hplain, h.ne_nil, h.dot⟩
    · have htext : c.text = c.stem ++ c.stars.text := by simp [text, hrejects]
      rw [if_neg (mt h.mark_prefix_iff.1 hrejects), ofName?_eq_some_iff, htext]
      exact ⟨Bool.eq_false_iff.2 hrejects, rfl, hplain, h.ne_nil, h.dot⟩

theorem read?_eq_none_iff : read? t = none ↔ ¬ IsClause t := by
  rw [Option.eq_none_iff_forall_ne_some]
  simp only [ne_eq, read?_eq_some_iff, IsClause, not_exists]

/-! ## What a clause matches -/

theorem isMatch_iff : c.isMatch name = true ↔ c.Matches name := by
  constructor
  · intro h
    obtain ⟨rejects, stem, stars⟩ := c
    cases stars with
    | none =>
      obtain rfl : name = stem := by simpa [isMatch] using h
      exact .exactly rfl
    | one =>
      obtain ⟨⟨rest, rfl⟩, hrest⟩ : stem <+: name ∧
          (¬ endsInDot stem = true ∨ '.' ∉ name.drop stem.length) := by simpa [isMatch] using h
      rw [List.drop_left, endsInDot_iff] at hrest
      by_cases hdot : ['.'] <:+ stem
      · exact .member rfl hdot (hrest.resolve_left (not_not_intro hdot))
      · exact .lead rfl hdot
    | two =>
      obtain ⟨rest, rfl⟩ : stem <+: name := by simpa [isMatch] using h
      exact .below rfl
  · intro h
    cases h with
    | exactly hstars => simp [isMatch, hstars]
    | member hstars hdot hrest => simp [isMatch, hstars, hrest]
    | lead hstars hdot => simp [isMatch, hstars, mt endsInDot_iff.1 hdot]
    | below hstars => simp [isMatch, hstars]

end Clause

/-! ## What a pattern decides -/

theorem Clause.WellFormed.eq_of_text_eq {d : Clause} (hc : c.WellFormed) (hd : d.WellFormed)
    (h : c.text = d.text) : c = d := by
  have hread := Clause.read?_eq_some_iff.2 ⟨hc, h.symm⟩
  rw [Clause.read?_eq_some_iff.2 ⟨hd, rfl⟩] at hread
  exact (Option.some.inj hread).symm

theorem decides_cons_iff {later : List Text} (hc : c.WellFormed) :
    Decides name (c.text :: later) v ↔
      c.Matches name ∧ v = c.verdict ∨ ¬ c.Matches name ∧ Decides name later v := by
  constructor
  · intro h
    generalize hsegments : c.text :: later = segments at h
    cases h with
    | unmatched => simp at hsegments
    | first hd hmatch =>
      obtain ⟨htext, rfl⟩ := List.cons.inj hsegments
      obtain rfl := hc.eq_of_text_eq hd htext
      exact Or.inl ⟨hmatch, rfl⟩
    | later hd hmatch hlater =>
      obtain ⟨htext, rfl⟩ := List.cons.inj hsegments
      obtain rfl := hc.eq_of_text_eq hd htext
      exact Or.inr ⟨hmatch, hlater⟩
  · rintro (⟨hmatch, rfl⟩ | ⟨hmatch, hlater⟩)
    · exact .first hc hmatch
    · exact .later hc hmatch hlater

/-- The clauses that are read off the segments decide as the segments do. -/
theorem decides_iff {segments : List Text} (h : ∀ t ∈ segments, IsClause t) :
    Decides name segments v ↔
      (((segments.filterMap Clause.read?).find? fun c => c.isMatch name).map
        Clause.verdict).getD .undecided = v := by
  induction segments with
  | nil =>
    constructor
    · rintro ⟨⟩
      rfl
    · rintro rfl
      exact .unmatched
  | cons t later ih =>
    obtain ⟨c, hc, rfl⟩ := h t (by simp)
    have hread : Clause.read? c.text = some c := Clause.read?_eq_some_iff.2 ⟨hc, rfl⟩
    rw [decides_cons_iff hc, ih fun t ht => h t (by simp [ht]), List.filterMap_cons_some hread,
      List.find?_cons]
    by_cases hmatch : c.isMatch name = true
    · simp [hmatch, Clause.isMatch_iff.1 hmatch, eq_comm]
    · simp [hmatch, mt Clause.isMatch_iff.2 hmatch]

/-! ## Reading a pattern -/

theorem clauseTexts_eq_splitOn (source : Text) :
    clauseTexts source = (source.splitOn ';').filter fun segment => !Text.isBlank segment := by
  rw [clauseTexts, Text.segments_eq_splitOn]

theorem Screen.ofPattern_eq (source : Text) :
    Screen.ofPattern source =
      match (clauseTexts source).find? fun t => (Clause.read? t).isNone with
      | some t => .error (.malformedClause t)
      | none => .ok (.pattern ⟨source, (clauseTexts source).filterMap Clause.read?⟩) := by
  rw [ofPattern, Pattern.read_eq]
  cases (clauseTexts source).find? fun t => (Clause.read? t).isNone <;> rfl

theorem isNone_read?_iff : (Clause.read? t).isNone = true ↔ ¬ IsClause t := by
  rw [Option.isNone_iff_eq_none, Clause.read?_eq_none_iff]

theorem find?_isNone_eq_some_iff {segments : List Text} :
    (segments.find? fun t => (Clause.read? t).isNone) = some t ↔
      ∃ before later, segments = before ++ t :: later ∧ (∀ b ∈ before, IsClause b) ∧
        ¬ IsClause t := by
  rw [List.find?_eq_some_iff_append, isNone_read?_iff]
  constructor
  · rintro ⟨ht, before, later, rfl, hbefore⟩
    refine ⟨before, later, rfl, fun b hb => ?_, ht⟩
    by_contra hnot
    simpa [isNone_read?_iff.2 hnot] using hbefore b hb
  · rintro ⟨before, later, rfl, hbefore, ht⟩
    refine ⟨ht, before, later, rfl, fun b hb => ?_⟩
    obtain ⟨c, hc, rfl⟩ := hbefore b hb
    simp [Clause.read?_eq_some_iff.2 ⟨hc, rfl⟩]

theorem find?_isNone_eq_none_iff {segments : List Text} :
    (segments.find? fun t => (Clause.read? t).isNone) = none ↔ ∀ t ∈ segments, IsClause t := by
  rw [List.find?_eq_none]
  simp only [isNone_read?_iff, not_not]

/-- A pattern is read if and only if each of its full segments is a clause, and the first segment
that is none is named otherwise. The first segment that matches a candidate's name decides. -/
theorem reads_ofPattern (source : Text) :
    Reads ((source.splitOn ';').filter fun segment => !Text.isBlank segment)
      (Screen.ofPattern source) := by
  rw [← clauseTexts_eq_splitOn, Screen.ofPattern_eq]
  cases hfind : (clauseTexts source).find? fun t => (Clause.read? t).isNone with
  | some t =>
    obtain ⟨before, later, hsegments, hbefore, ht⟩ := find?_isNone_eq_some_iff.1 hfind
    refine ⟨?_, fun fault => ?_, by simp⟩
    · refine iff_of_false (by simp) fun hall => ht (hall t ?_)
      simp [hsegments]
    · constructor
      · intro hfault
        obtain rfl := Except.error.inj hfault
        exact ⟨before, t, later, hsegments, hbefore, ht, rfl, rfl⟩
      · rintro ⟨before', t', later', hsegments', hbefore', ht', rfl, _⟩
        rw [find?_isNone_eq_some_iff.2 ⟨before', later', hsegments', hbefore', ht'⟩] at hfind
        rw [Option.some.inj hfind]
  | none =>
    have hall := find?_isNone_eq_none_iff.1 hfind
    refine ⟨iff_of_true ⟨_, rfl⟩ hall, fun fault => ?_, ?_⟩
    · refine iff_of_false (by simp) ?_
      rintro ⟨before, t, later, hsegments, _, ht, _⟩
      exact ht (hall t (by simp [hsegments]))
    · intro screen hscreen candidate name hname v
      obtain rfl := Except.ok.inj hscreen
      rw [decides_iff hall, Screen.verdict, Pattern.verdict, hname]
      rfl

end Gatekeeper.Screening
