import Gatekeeper.Redaction.Pair
import Mathlib.Data.List.TakeWhile
import Mathlib.Tactic.ByContra

/-!
# What the readers of a pair's parts read

Each reader takes the longest part of its kind. Its lemma says so without the reader: the part is of
its kind, and what follows cannot extend it. The kinds are `IsOption`, `IsAssignment` and the three
forms of an argument; `Stops p t` says that `t` does not go on with a character of class `p`.
-/

namespace Gatekeeper.Redaction

variable {p q : Char → Bool} {t u v : Text}

def Stops (p : Char → Bool) (t : Text) : Prop := ∀ c ∈ t.head?, p c = false

@[simp] theorem stops_nil : Stops p [] := by simp [Stops]

@[simp] theorem stops_cons {c : Char} : Stops p (c :: t) ↔ p c = false := by simp [Stops]

theorem Stops.mono (h : Stops p t) (hqp : ∀ c, q c = true → p c = true) : Stops q t := by
  intro c hc
  by_contra hq
  have hp := hqp c (by simpa using hq)
  simp [h c hc] at hp

theorem stops_append_of_ne_nil (hu : u ≠ []) : Stops p (u ++ v) ↔ Stops p u := by
  cases u with
  | nil => exact absurd rfl hu
  | cons c u => simp

theorem stops_dropWhile (p : Char → Bool) (t : Text) : Stops p (t.dropWhile p) := by
  intro c hc
  have hd := List.head?_dropWhile_not p t
  rw [Option.mem_def.1 hc] at hd
  simpa using hd

theorem Stops.takeWhile_append (h : Stops p v) (u : Text) :
    (u ++ v).takeWhile p = u.takeWhile p := by
  induction u with
  | nil => cases v with
    | nil => rfl
    | cons c v => simp_all
  | cons c u ih => by_cases hc : p c = true <;> simp [hc, ih]

theorem Stops.dropWhile_append (h : Stops p v) (u : Text) :
    (u ++ v).dropWhile p = u.dropWhile p ++ v := by
  induction u with
  | nil => cases v with
    | nil => rfl
    | cons c v => simp_all
  | cons c u ih => by_cases hc : p c = true <;> simp [hc, ih]

theorem of_mem_takeWhile {c : Char} (h : c ∈ t.takeWhile p) : p c = true :=
  List.all_eq_true.1 (List.all_takeWhile (p := p) (l := t)) c h

theorem isSpace_of_isPad {c : Char} (h : isPad c = true) : Text.isSpace c = true := by
  simp only [isPad, Bool.or_eq_true, decide_eq_true_eq] at h
  rcases h with rfl | rfl <;> decide

theorem isInk_of_isOptionChar {c : Char} (h : isOptionChar c = true) : isInk c = true := by
  simp_all [isOptionChar, isInk]

theorem isInk_of_isOptionStart {c : Char} (h : isOptionStart c = true) : isInk c = true := by
  apply isInk_of_isOptionChar
  simp_all [isOptionStart]

theorem isInk_of_isHyphen {c : Char} (h : isHyphen c = true) : isInk c = true := by
  simp only [isHyphen, decide_eq_true_eq] at h
  subst c
  decide

theorem stops_isPad_of_isInk {c : Char} (h : isInk c = true) : isPad c = false := by
  by_contra hp
  have hs := isSpace_of_isPad (by simpa using hp)
  simp [isInk, hs] at h

theorem after?_append (lead : Text) (hlead : ∀ c ∈ lead, isInk c = true) (hv : Stops isInk v)
    (u : Text) : after? lead (u ++ v) = (after? lead u).map (· ++ v) := by
  induction lead generalizing u with
  | nil => rfl
  | cons l lead ih =>
    have hl : isInk l = true := hlead l (by simp)
    cases u with
    | nil =>
      cases v with
      | nil => rfl
      | cons s v =>
        have hne : l ≠ s := by
          intro heq
          rw [heq, stops_cons.1 hv] at hl
          simp at hl
        simp [after?, hne]
    | cons c u =>
      by_cases hc : l = c
      · simpa [after?, hc] using ih (fun d hd => hlead d (by simp [hd])) u
      · simp [after?, hc]

/-! ## Markers -/

namespace Marker

/-- Whether no longer marker than `m` stands at the start of `m.text ++ rest`. -/
def IsLongest (m : Marker) (rest : Text) : Prop :=
  match m with
  | .bare => False
  | .property => True
  | .forwarded => True
  | .hyphens extra => Stops isHyphen rest ∧ ¬ (extra = 0 ∧ ['J', '=', '-', 'D'] <+: rest)

theorem IsLongest.ne_bare {m : Marker} {rest : Text} (h : m.IsLongest rest) : m ≠ .bare := by
  intro hm
  rw [hm] at h
  exact h

theorem isLongest_of_read? {m : Marker} {rest : Text} (h : read? t = some (m, rest)) :
    m.IsLongest rest := by
  have ht := eq_append_of_read? h
  unfold read? at h
  split at h
  · obtain ⟨rfl, rfl⟩ := Prod.mk.inj (Option.some.inj h)
    trivial
  · next hf =>
    split at h
    · obtain ⟨rfl, rfl⟩ := Prod.mk.inj (Option.some.inj h)
      trivial
    · split at h
      · next r hr =>
        obtain ⟨rfl, rfl⟩ := Prod.mk.inj (Option.some.inj h)
        refine ⟨stops_dropWhile _ _, ?_⟩
        intro ⟨hextra, k, hk⟩
        rw [hextra, ← hk] at ht
        have hf' : after? forwarded.text t = some k := after?_eq_some_iff.2 ht
        simp [hf] at hf'
      · exact absurd h (by simp)

theorem read?_hyphens {extra : Nat} {rest : Text} (h : (hyphens extra).IsLongest rest) :
    read? ((hyphens extra).text ++ rest) = some (.hyphens extra, rest) := by
  obtain ⟨hs, hj⟩ := h
  have hf : after? forwarded.text ((hyphens extra).text ++ rest) = none := by
    rw [Option.eq_none_iff_forall_ne_some]
    intro k hk
    have hk := after?_eq_some_iff.1 hk
    cases extra with
    | zero =>
      refine hj ⟨rfl, k, ?_⟩
      simpa [text, eq_comm] using hk
    | succ extra => simp [text, List.replicate_succ] at hk
  have hp : after? property.text ((hyphens extra).text ++ rest) = none := by
    simp [text, List.replicate_succ, after?]
  have hh : after? ['-', '-'] ((hyphens extra).text ++ rest) =
      some (List.replicate extra '-' ++ rest) := by
    simp [text, List.replicate_succ, after?]
  have hall : ∀ c ∈ List.replicate extra '-', isHyphen c = true := by simp [isHyphen]
  simp only [read?, hf, hp, hh, hs.takeWhile_append, hs.dropWhile_append,
    List.takeWhile_eq_self_iff.2 hall, List.dropWhile_eq_nil_iff.2 hall, List.length_replicate,
    List.nil_append]

theorem read?_eq_some_iff {m : Marker} {rest : Text} :
    read? t = some (m, rest) ↔ t = m.text ++ rest ∧ m.IsLongest rest := by
  constructor
  · intro h
    exact ⟨eq_append_of_read? h, isLongest_of_read? h⟩
  · intro ⟨ht, hm⟩
    subst ht
    cases m with
    | bare => exact hm.elim
    | property => simp [read?, text, after?]
    | forwarded => simp [read?, text, after?]
    | hyphens extra => exact read?_hyphens hm

theorem exists_text_eq_cons {m : Marker} (h : m ≠ .bare) : ∃ k, m.text = '-' :: k := by
  cases m with
  | bare => exact absurd rfl h
  | property => exact ⟨_, rfl⟩
  | forwarded => exact ⟨_, rfl⟩
  | hyphens extra => exact ⟨_, rfl⟩

theorem read?_eq_none (h : Stops isHyphen t) : read? t = none := by
  rw [Option.eq_none_iff_forall_ne_some]
  intro ⟨m, rest⟩ hm
  obtain ⟨rfl, hl⟩ := read?_eq_some_iff.1 hm
  obtain ⟨k, hk⟩ := exists_text_eq_cons hl.ne_bare
  simp [hk, isHyphen] at h

/-- A marker holds no whitespace, so what stands behind whitespace does not matter to it. -/
theorem read?_append (hv : Stops isInk v) (u : Text) :
    read? (u ++ v) = (read? u).map fun (m, rest) => (m, rest ++ v) := by
  have hhyphen : Stops isHyphen v := hv.mono fun _ => isInk_of_isHyphen
  have hf := after?_append forwarded.text (List.all_eq_true.1 (by decide)) hv u
  have hp := after?_append property.text (List.all_eq_true.1 (by decide)) hv u
  have hh := after?_append ['-', '-'] (List.all_eq_true.1 (by decide)) hv u
  simp only [read?, hf, hp, hh]
  cases after? forwarded.text u with
  | some rest => rfl
  | none =>
    cases after? property.text u with
    | some rest => rfl
    | none =>
      cases after? ['-', '-'] u with
      | none => rfl
      | some rest => simp [hhyphen.takeWhile_append, hhyphen.dropWhile_append]

end Marker

theorem startsPair_append (hv : Stops isInk v) (u : Text) :
    startsPair (u ++ v) = startsPair u := by
  simp only [startsPair, Marker.read?_append hv]
  rcases Marker.read? u with _ | ⟨m, _ | ⟨c, rest⟩⟩
  · rfl
  · cases v with
    | nil => rfl
    | cons s v =>
      by_contra hs
      have hink := isInk_of_isOptionStart (c := s) (by simpa using hs)
      simp [stops_cons.1 hv] at hink
  · rfl

theorem startsPair_iff :
    startsPair t = true ↔
      ∃ m c rest, t = Marker.text m ++ c :: rest ∧ m.IsLongest (c :: rest) ∧
        isOptionStart c = true := by
  constructor
  · intro h
    unfold startsPair at h
    split at h
    · next m c rest hm =>
      obtain ⟨ht, hl⟩ := Marker.read?_eq_some_iff.1 hm
      exact ⟨m, c, rest, ht, hl, h⟩
    · simp at h
  · intro ⟨m, c, rest, ht, hl, hc⟩
    simp only [startsPair, Marker.read?_eq_some_iff.2 ⟨ht, hl⟩, hc]

theorem head?_of_startsPair (h : startsPair t = true) : t.head? = some '-' := by
  obtain ⟨m, c, rest, rfl, hl, _⟩ := startsPair_iff.1 h
  obtain ⟨k, hk⟩ := Marker.exists_text_eq_cons hl.ne_bare
  simp [hk]

/-! ## Options -/

structure IsOption (o : Text) : Prop where
  ne_nil : o ≠ []
  chars : ∀ c ∈ o, isOptionChar c = true
  unhyphened : Stops isHyphen o

theorem isOption_of_readOption? {o rest : Text} (h : readOption? t = some (o, rest)) :
    IsOption o ∧ Stops isOptionChar rest := by
  cases t with
  | nil => simp [readOption?] at h
  | cons c t =>
    simp only [readOption?, Option.ite_none_right_eq_some, Option.some.injEq, Prod.mk.injEq] at h
    obtain ⟨hc, rfl, rfl⟩ := h
    simp only [isOptionStart, Bool.and_eq_true, Bool.not_eq_true'] at hc
    refine ⟨⟨by simp, ?_, by simpa using hc.2⟩, stops_dropWhile _ _⟩
    intro d hd
    rcases List.mem_cons.1 hd with rfl | hd
    · exact hc.1
    · exact of_mem_takeWhile hd

theorem readOption?_eq_some_iff {o rest : Text} :
    readOption? t = some (o, rest) ↔
      t = o ++ rest ∧ IsOption o ∧ Stops isOptionChar rest := by
  constructor
  · intro h
    exact ⟨eq_append_of_readOption? h, isOption_of_readOption? h⟩
  · intro ⟨ht, ⟨hne, hchars, hhyphen⟩, hrest⟩
    subst ht
    obtain ⟨c, o, rfl⟩ := List.exists_cons_of_ne_nil hne
    have hc : isOptionStart c = true := by
      simp [isOptionStart, hchars c (by simp), stops_cons.1 hhyphen]
    have ho : ∀ d ∈ o, isOptionChar d = true := fun d hd => hchars d (by simp [hd])
    simp [readOption?, hc, hrest.takeWhile_append, hrest.dropWhile_append,
      List.takeWhile_eq_self_iff.2 ho, List.dropWhile_eq_nil_iff.2 ho]

theorem readOption?_eq_none_iff : readOption? t = none ↔ Stops isOptionStart t := by
  cases t with
  | nil => simp [readOption?]
  | cons c t => simp [readOption?]

/-! ## Assignments -/

def IsAssignment (a : Text) : Prop :=
  (∃ l r, (∀ c ∈ l, isPad c = true) ∧ (∀ c ∈ r, isPad c = true) ∧ a = l ++ '=' :: r) ∨
    (a ≠ [] ∧ ∀ c ∈ a, isPad c = true)

theorem isAssignment_equals : IsAssignment ['='] := Or.inl ⟨[], [], by simp, by simp, rfl⟩

theorem equals_not_mem_of_pads {a : Text} (h : ∀ c ∈ a, isPad c = true) : '=' ∉ a := by
  intro hmem
  exact absurd (h '=' hmem) (by decide)

theorem readAssignment?_append (hv : Stops isPad v) (heq : v.head? ≠ some '=') (u : Text) :
    readAssignment? (u ++ v) = (readAssignment? u).map fun (a, rest) => (a, rest ++ v) := by
  unfold readAssignment?
  rw [hv.dropWhile_append, hv.takeWhile_append]
  rcases hd : u.dropWhile isPad with _ | ⟨c, k⟩
  · have hsplit : ∀ r, [] ++ v ≠ '=' :: r := by
      intro r hr
      simp only [List.nil_append] at hr
      simp [hr] at heq
    split
    · next r hr => exact absurd hr (hsplit r)
    · by_cases hp : (u.takeWhile isPad).isEmpty = true <;> simp [hp]
  · by_cases hc : c = '='
    · subst c
      simp [hv.dropWhile_append, hv.takeWhile_append]
    · have hsplit : ∀ w r, (c :: k) ++ w ≠ '=' :: r := by simp [hc]
      split
      · next r hr => exact absurd hr (hsplit v r)
      · by_cases hp : (u.takeWhile isPad).isEmpty = true <;> simp [hp, hc]

theorem isAssignment_of_readAssignment? {a rest : Text}
    (h : readAssignment? t = some (a, rest)) :
    IsAssignment a ∧ Stops isPad rest ∧ ('=' ∉ a → rest.head? ≠ some '=') := by
  unfold readAssignment? at h
  split at h
  · obtain ⟨rfl, rfl⟩ := Prod.mk.inj (Option.some.inj h)
    refine ⟨Or.inl ⟨_, _, fun c hc => of_mem_takeWhile hc, fun c hc => of_mem_takeWhile hc, rfl⟩,
      stops_dropWhile _ _, ?_⟩
    simp
  · next hne =>
    simp only [Option.ite_none_left_eq_some, Option.some.injEq, Prod.mk.injEq] at h
    obtain ⟨hpads, rfl, rfl⟩ := h
    refine ⟨Or.inr ⟨by simpa using hpads, fun c hc => of_mem_takeWhile hc⟩,
      stops_dropWhile _ _, fun _ hhead => ?_⟩
    obtain ⟨r, hr⟩ := List.head?_eq_some_iff.1 hhead
    exact hne r hr

theorem readAssignment?_eq_some_iff {a rest : Text} :
    readAssignment? t = some (a, rest) ↔
      t = a ++ rest ∧ IsAssignment a ∧ Stops isPad rest ∧
        ('=' ∉ a → rest.head? ≠ some '=') := by
  constructor
  · intro h
    exact ⟨eq_append_of_readAssignment? h, isAssignment_of_readAssignment? h⟩
  · intro ⟨ht, hassign, hrest, heq⟩
    subst ht
    rcases hassign with ⟨l, r, hl, hr, rfl⟩ | ⟨hne, hpads⟩
    · have hstop : Stops isPad ('=' :: (r ++ rest)) := by simp [isPad]
      simp [readAssignment?, hstop.dropWhile_append, hstop.takeWhile_append,
        hrest.dropWhile_append, hrest.takeWhile_append, List.takeWhile_eq_self_iff.2 hl,
        List.dropWhile_eq_nil_iff.2 hl, List.takeWhile_eq_self_iff.2 hr,
        List.dropWhile_eq_nil_iff.2 hr]
    · have heq := heq (equals_not_mem_of_pads hpads)
      rw [readAssignment?_append hrest heq]
      simp [readAssignment?, List.takeWhile_eq_self_iff.2 hpads,
        List.dropWhile_eq_nil_iff.2 hpads, hne]

/-! ## Arguments -/

def IsRun (a : Text) : Prop := a ≠ [] ∧ (∀ c ∈ a, isInk c = true) ∧ a.head? ≠ some '"'

def IsClosedQuote (a : Text) : Prop :=
  ∃ body tail, (∀ c ∈ body, isUnquoted c = true) ∧ (∀ c ∈ tail, isInk c = true) ∧
    a = '"' :: (body ++ '"' :: tail)

def IsOpenQuote (a : Text) : Prop :=
  ∃ body, (∀ c ∈ body, isUnquoted c = true) ∧ a = '"' :: body

def IsArgument (a : Text) : Prop := IsRun a ∨ IsClosedQuote a ∨ IsOpenQuote a

/-- An argument ends at whitespace or at the end of the line, an open quote at the latter only. -/
def EndsArgument (a rest : Text) : Prop := Stops isInk rest ∧ (IsOpenQuote a → rest = [])

theorem IsArgument.ne_nil {a : Text} (h : IsArgument a) : a ≠ [] := by
  rcases h with h | ⟨body, tail, _, _, rfl⟩ | ⟨body, _, rfl⟩
  · exact h.1
  · simp
  · simp

theorem IsArgument.stops_isPad {a : Text} (h : IsArgument a) : Stops isPad a := by
  rcases h with ⟨hne, hink, _⟩ | ⟨body, tail, _, _, rfl⟩ | ⟨body, _, rfl⟩
  · obtain ⟨c, a, rfl⟩ := List.exists_cons_of_ne_nil hne
    exact stops_cons.2 (stops_isPad_of_isInk (hink c (by simp)))
  · simp [isPad]
  · simp [isPad]

theorem not_isOpenQuote_of_isRun {a : Text} (h : IsRun a) : ¬ IsOpenQuote a := by
  intro ⟨body, _, heq⟩
  subst heq
  simp [IsRun] at h

theorem not_isOpenQuote_of_isClosedQuote {a : Text} (h : IsClosedQuote a) : ¬ IsOpenQuote a := by
  obtain ⟨body, tail, _, _, rfl⟩ := h
  intro ⟨body', hbody', heq⟩
  have hmem : '"' ∈ body' := by simp [← (List.cons.inj heq).2]
  exact absurd (hbody' _ hmem) (by decide)

theorem isArgument_of_readArgument? {a rest : Text} (h : readArgument? t = some (a, rest)) :
    IsArgument a ∧ EndsArgument a rest := by
  unfold readArgument? at h
  split at h
  · simp at h
  · next r =>
    split at h
    · next hr =>
      obtain ⟨rfl, rfl⟩ := Prod.mk.inj (Option.some.inj h)
      exact ⟨Or.inr (Or.inr ⟨r, List.dropWhile_eq_nil_iff.1 hr, rfl⟩), by simp, fun _ => rfl⟩
    · next quote after hr =>
      obtain ⟨rfl, rfl⟩ := Prod.mk.inj (Option.some.inj h)
      have hquote : quote = '"' := by
        have hstop := stops_dropWhile isUnquoted r
        simpa [hr, isUnquoted] using hstop
      have hclosed : IsClosedQuote
          ('"' :: r.takeWhile isUnquoted ++ quote :: after.takeWhile isInk) :=
        ⟨r.takeWhile isUnquoted, after.takeWhile isInk, fun c hc => of_mem_takeWhile hc,
          fun c hc => of_mem_takeWhile hc, by simp [hquote]⟩
      exact ⟨Or.inr (Or.inl hclosed), stops_dropWhile _ _,
        fun hopen => absurd hopen (not_isOpenQuote_of_isClosedQuote hclosed)⟩
  · next c r hc =>
    simp only [Option.ite_none_right_eq_some, Option.some.injEq, Prod.mk.injEq] at h
    obtain ⟨hink, rfl, rfl⟩ := h
    have hrun : IsRun (c :: r.takeWhile isInk) := by
      refine ⟨by simp, ?_, by simpa using hc⟩
      intro d hd
      rcases List.mem_cons.1 hd with rfl | hd
      · exact hink
      · exact of_mem_takeWhile hd
    exact ⟨Or.inl hrun, stops_dropWhile _ _,
      fun hopen => absurd hopen (not_isOpenQuote_of_isRun hrun)⟩

theorem readArgument?_run {a rest : Text} (h : IsRun a) (hrest : Stops isInk rest) :
    readArgument? (a ++ rest) = some (a, rest) := by
  obtain ⟨hne, hink, hquote⟩ := h
  obtain ⟨c, a, rfl⟩ := List.exists_cons_of_ne_nil hne
  have hc : c ≠ '"' := by simpa using hquote
  have ha : ∀ d ∈ a, isInk d = true := fun d hd => hink d (by simp [hd])
  simp [readArgument?, hink c (by simp), hrest.takeWhile_append, hrest.dropWhile_append,
    List.takeWhile_eq_self_iff.2 ha, List.dropWhile_eq_nil_iff.2 ha]

theorem readArgument?_closedQuote {a rest : Text} (h : IsClosedQuote a)
    (hrest : Stops isInk rest) : readArgument? (a ++ rest) = some (a, rest) := by
  obtain ⟨body, tail, hbody, htail, rfl⟩ := h
  have hstop : Stops isUnquoted ('"' :: (tail ++ rest)) := by simp [isUnquoted]
  simp [readArgument?, hstop.takeWhile_append, hstop.dropWhile_append,
    List.takeWhile_eq_self_iff.2 hbody, List.dropWhile_eq_nil_iff.2 hbody,
    hrest.takeWhile_append, hrest.dropWhile_append, List.takeWhile_eq_self_iff.2 htail,
    List.dropWhile_eq_nil_iff.2 htail]

theorem readArgument?_openQuote {a : Text} (h : IsOpenQuote a) :
    readArgument? a = some (a, []) := by
  obtain ⟨body, hbody, rfl⟩ := h
  simp [readArgument?, List.dropWhile_eq_nil_iff.2 hbody]

theorem readArgument?_eq_some_iff {a rest : Text} :
    readArgument? t = some (a, rest) ↔ t = a ++ rest ∧ IsArgument a ∧ EndsArgument a rest := by
  constructor
  · intro h
    exact ⟨eq_append_of_readArgument? h, isArgument_of_readArgument? h⟩
  · intro ⟨ht, harg, hrest, hend⟩
    subst ht
    rcases harg with hrun | hclosed | hopen
    · exact readArgument?_run hrun hrest
    · exact readArgument?_closedQuote hclosed hrest
    · rw [hend hopen, List.append_nil]
      exact readArgument?_openQuote hopen

theorem readArgument?_eq_none_iff : readArgument? t = none ↔ Stops isInk t := by
  constructor
  · intro h
    unfold readArgument? at h
    split at h
    · simp
    · split at h <;> simp at h
    · simpa using h
  · intro h
    rw [Option.eq_none_iff_forall_ne_some]
    intro ⟨a, rest⟩ ha
    obtain ⟨rfl, harg, _⟩ := readArgument?_eq_some_iff.1 ha
    rcases harg with hrun | ⟨body, tail, _, _, rfl⟩ | ⟨body, _, rfl⟩
    · obtain ⟨c, a, rfl⟩ := List.exists_cons_of_ne_nil hrun.1
      simp [hrun.2.1 c (by simp)] at h
    · exact absurd (stops_cons.1 h) (by decide)
    · exact absurd (stops_cons.1 h) (by decide)

end Gatekeeper.Redaction
