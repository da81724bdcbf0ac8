import Gatekeeper.Proofs.Redaction.Span
import Mathlib.Algebra.Ring.Int.Defs
import Mathlib.Data.List.Pairwise

/-!
# Rewriting a line by position

A redaction puts the token where the arguments of the sensitive options stood, all at once, and
moves the rest of the line without a change. Main statement: what is put out is the line with the
spans of those arguments replaced, each other stretch of it is found again as far off as the tokens
before it are longer or shorter than the arguments they replace, and the reports name the options in
the order of the line (`rewritten_redactLine`).
-/

namespace Gatekeeper.Redaction

variable {token line : Text} {S : Text → Bool}

/-- The pairs among pieces, located from a position on, whose arguments are replaced. -/
def hiddenFrom (S : Text → Bool) (start : Nat) (pieces : List Piece) : List Found :=
  (locate start pieces).filter fun f => f.pair.isHidden S

def hiddenFound (S : Text → Bool) (line : Text) : List Found :=
  (findAll line).filter fun f => f.pair.isHidden S

/-- The line from position `i` on, with the token in place of the arguments of the pairs. -/
def splice (token line : Text) : Nat → List Found → Text
  | i, [] => line.drop i
  | i, f :: hidden => line.extract i f.argumentStart ++ token ++ splice token line f.stop hidden

/-- By how much the token is longer than the argument it replaces. -/
def Found.growth (token : Text) (f : Found) : Int :=
  token.length - (f.pair.argument?.getD []).length

/-- How far what stands at position `i` is moved by the replacements before it. -/
def displacement (token : Text) (hidden : List Found) (i : Nat) : Int :=
  ((hidden.filter fun f => f.stop ≤ i).map (Found.growth token)).sum

/-- Whether a text stands at a position of another. -/
def StandsAt (t : Text) (position : Int) (u : Text) : Prop :=
  ∃ before after, t = before ++ (u ++ after) ∧ (before.length : Int) = position

/-! ## Splicing -/

theorem extract_append_extract {t : Text} {i j k : Nat} (hij : i ≤ j) (hjk : j ≤ k) :
    t.extract i j ++ t.extract j k = t.extract i k := by
  have hlength : k - i = (j - i) + (k - j) := by omega
  have hdrop : (t.drop i).drop (j - i) = t.drop j := by
    rw [List.drop_drop, Nat.add_sub_cancel' hij]
  simp only [List.extract_eq_take_drop, hlength, List.take_add, hdrop]

theorem extract_append_drop {t : Text} {i j : Nat} (hij : i ≤ j) :
    t.extract i j ++ t.drop j = t.drop i := by
  have hdrop : (t.drop i).drop (j - i) = t.drop j := by
    rw [List.drop_drop, Nat.add_sub_cancel' hij]
  rw [List.extract_eq_take_drop, ← hdrop, List.take_append_drop]

/-- The arguments of pairs stand in a text, one behind the other, from position `i` on. -/
def InOrder (length : Nat) : Nat → List Found → Prop
  | i, [] => i ≤ length
  | i, f :: hidden =>
    i ≤ f.argumentStart ∧ f.argumentStart < f.stop ∧ InOrder length f.stop hidden

theorem InOrder.le {length i : Nat} {hidden : List Found} (h : InOrder length i hidden) :
    i ≤ length := by
  induction hidden generalizing i with
  | nil => exact h
  | cons f hidden ih =>
    have hstop := ih h.2.2
    have hle := h.1
    have hlt := h.2.1
    omega

theorem length_extract {t : Text} {i j : Nat} (hij : i ≤ j) (hj : j ≤ t.length) :
    (t.extract i j).length = j - i := by
  rw [List.extract_eq_take_drop, List.length_take, List.length_drop]
  omega

namespace Found

theorem start_le_argumentStart (f : Found) : f.start ≤ f.argumentStart := by
  rw [f.argumentStart_eq]
  exact Nat.le_add_right _ _

theorem stop_eq_argumentStart_add (f : Found) :
    f.stop = f.argumentStart + (f.pair.argument?.getD []).length := by
  rw [argumentStart_eq, stop, Nat.add_assoc, ← List.length_append, ← f.pair.text_eq_stem_append]

theorem growth_eq (token : Text) (f : Found) :
    f.growth token = token.length - ((f.stop : Int) - f.argumentStart) := by
  rw [growth, f.stop_eq_argumentStart_add]
  omega

end Found

theorem length_splice {i : Nat} {hidden : List Found} (h : InOrder line.length i hidden) :
    ((splice token line i hidden).length : Int) =
      line.length - i + (hidden.map (Found.growth token)).sum := by
  induction hidden generalizing i with
  | nil =>
    have hi : i ≤ line.length := h
    rw [splice, List.length_drop, List.map_nil, List.sum_nil]
    omega
  | cons f hidden ih =>
    obtain ⟨hi, hstart, hrest⟩ := h
    have hstop := hrest.le
    have htail := ih hrest
    rw [splice, List.length_append, List.length_append, length_extract hi (by omega),
      List.map_cons, List.sum_cons, f.growth_eq token]
    omega

@[simp] theorem displacement_nil (token : Text) (i : Nat) : displacement token [] i = 0 := rfl

theorem displacement_cons {f : Found} {i : Nat} (h : f.stop ≤ i) (hidden : List Found) :
    displacement token (f :: hidden) i = f.growth token + displacement token hidden i := by
  simp [displacement, h]

theorem displacement_of_le {i k length : Nat} {hidden : List Found} (h : InOrder length k hidden)
    (hik : i ≤ k) : displacement token hidden i = 0 := by
  induction hidden generalizing k with
  | nil => rfl
  | cons f hidden ih =>
    obtain ⟨hstart, hlt, hrest⟩ := h
    have hskip : ¬ f.stop ≤ i := by omega
    have htail : displacement token hidden i = 0 := ih hrest (by omega)
    rw [displacement] at htail ⊢
    rw [List.filter_cons_of_neg (by simpa using hskip), htail]

theorem StandsAt.append_left {t u : Text} {n : Int} (h : StandsAt t n u) (v : Text) :
    StandsAt (v ++ t) (v.length + n) u := by
  obtain ⟨before, after, rfl, hlength⟩ := h
  refine ⟨v ++ before, after, by simp, ?_⟩
  rw [List.length_append]
  omega

/-- What stands behind the first replacement is moved by it, and by those that follow. -/
theorem standsAt_splice_cons {f : Found} {hidden : List Found} {i k : Nat} {u : Text}
    (h : InOrder line.length k (f :: hidden)) (hi : f.stop ≤ i)
    (hrest : StandsAt (splice token line f.stop hidden)
      (i - f.stop + displacement token hidden i) u) :
    StandsAt (splice token line k (f :: hidden))
      (i - k + displacement token (f :: hidden) i) u := by
  obtain ⟨hk, hlt, horder⟩ := h
  have hstop := horder.le
  have hmoved := hrest.append_left (line.extract k f.argumentStart ++ token)
  rw [List.length_append, length_extract hk (by omega)] at hmoved
  rw [splice, displacement_cons hi, f.growth_eq token]
  convert hmoved using 1
  omega

/-- A stretch outside of the arguments is put out as it is. -/
theorem standsAt_splice (token : Text) {i j k : Nat} {hidden : List Found}
    (h : InOrder line.length k hidden) (hk : k ≤ i) (hij : i ≤ j) (hj : j ≤ line.length)
    (houtside : ∀ f ∈ hidden, f.stop ≤ i ∨ j ≤ f.argumentStart) :
    StandsAt (splice token line k hidden) (i - k + displacement token hidden i)
      (line.extract i j) := by
  induction hidden generalizing k with
  | nil =>
    refine ⟨line.extract k i, line.drop j, ?_, ?_⟩
    · rw [extract_append_drop hij, extract_append_drop hk, splice]
    · rw [length_extract hk (by omega), displacement_nil]
      omega
  | cons f hidden ih =>
    obtain ⟨hstart, hlt, hrest⟩ := h
    rcases houtside f (by simp) with hbehind | hbefore
    · have hother : ∀ g ∈ hidden, g.stop ≤ i ∨ j ≤ g.argumentStart := fun g hg =>
        houtside g (by simp [hg])
      exact standsAt_splice_cons ⟨hstart, hlt, hrest⟩ hbehind (ih hrest hbehind hother)
    · -- The stretch stands in what is put out before the first token.
      refine ⟨line.extract k i,
        line.extract j f.argumentStart ++ (token ++ splice token line f.stop hidden), ?_, ?_⟩
      · rw [splice, ← extract_append_extract hk (hij.trans hbefore),
          ← extract_append_extract hij hbefore]
        simp only [List.append_assoc]
      · have hmoved : displacement token (f :: hidden) i = 0 :=
          displacement_of_le ⟨Nat.le_refl _, hlt, hrest⟩ (hij.trans hbefore)
        rw [length_extract hk (by omega), hmoved]
        omega

theorem InOrder.le_argumentStart {k length : Nat} {hidden : List Found}
    (h : InOrder length k hidden) {f : Found} (hf : f ∈ hidden) : k ≤ f.argumentStart := by
  induction hidden generalizing k with
  | nil => exact absurd hf List.not_mem_nil
  | cons g hidden ih =>
    obtain ⟨hk, hlt, hrest⟩ := h
    rcases List.mem_cons.1 hf with rfl | hf
    · exact hk
    · have hbehind := ih hrest hf
      omega

/-- The token is put out where an argument stood. -/
theorem standsAt_splice_token (token : Text) {k : Nat} {hidden : List Found}
    (h : InOrder line.length k hidden) {f : Found} (hf : f ∈ hidden) :
    StandsAt (splice token line k hidden)
      (f.argumentStart - k + displacement token hidden f.argumentStart) token := by
  induction hidden generalizing k with
  | nil => exact absurd hf List.not_mem_nil
  | cons g hidden ih =>
    obtain ⟨hk, hlt, hrest⟩ := h
    have hstop := hrest.le
    rcases List.mem_cons.1 hf with rfl | hf
    · have hmoved : displacement token (f :: hidden) f.argumentStart = 0 :=
        displacement_of_le ⟨Nat.le_refl _, hlt, hrest⟩ (Nat.le_refl _)
      refine ⟨line.extract k f.argumentStart, splice token line f.stop hidden, ?_, ?_⟩
      · rw [splice, List.append_assoc]
      · rw [length_extract hk (by omega), hmoved]
        omega
    · exact standsAt_splice_cons ⟨hk, hlt, hrest⟩ (hrest.le_argumentStart hf) (ih hrest hf)

/-! ## The spans of hidden arguments -/

theorem inOrder_of_pairwise {i : Nat} {hidden : List Found}
    (hsound : ∀ f ∈ hidden, f.argumentStart < f.stop ∧ f.stop ≤ line.length)
    (hparted : hidden.Pairwise fun f g => f.stop ≤ g.argumentStart)
    (hi : ∀ f ∈ hidden, i ≤ f.argumentStart) (hle : i ≤ line.length) :
    InOrder line.length i hidden := by
  induction hidden generalizing i with
  | nil => exact hle
  | cons f hidden ih =>
    obtain ⟨hbehind, hparted⟩ := List.pairwise_cons.1 hparted
    obtain ⟨hlt, hstop⟩ := hsound f (by simp)
    have hrest := ih (fun g hg => hsound g (by simp [hg])) hparted hbehind hstop
    exact ⟨hi f (by simp), hlt, hrest⟩

theorem argumentStart_lt_stop {f : Found} (hf : f ∈ findAll line)
    (hhidden : f.pair.isHidden S = true) : f.argumentStart < f.stop := by
  rw [Pair.isHidden, Bool.and_eq_true] at hhidden
  obtain ⟨b, hb⟩ := Option.isSome_iff_exists.1 hhidden.1
  have ha : f.pair.argument? = some b.argument := by rw [Pair.argument?, hb, Option.map_some]
  have hpos := List.length_pos_iff.2 ((soundIn_of_found hf).argument _ ha).2
  rw [f.stop_eq_argumentStart_add, ha, Option.getD_some]
  omega

theorem inOrder_hiddenFound (S : Text → Bool) (line : Text) :
    InOrder line.length 0 (hiddenFound S line) := by
  refine inOrder_of_pairwise ?_ ?_ (fun _ _ => Nat.zero_le _) (Nat.zero_le _)
  · intro f hf
    obtain ⟨hfound, hhidden⟩ := List.mem_filter.1 hf
    exact ⟨argumentStart_lt_stop hfound hhidden, (soundIn_of_found hfound).stop_le⟩
  · have hparted := (pairwise_findAll line).filter fun f => f.pair.isHidden S
    exact hparted.imp fun {f g} hlt => hlt.le.trans g.start_le_argumentStart

/-! ## From pieces to positions -/

theorem extract_append_piece {u v w : Text} {i : Nat} (hline : line = u ++ (v ++ w))
    (hi : i ≤ u.length) :
    line.extract i (u ++ v).length = line.extract i u.length ++ v := by
  have hle : u.length ≤ (u ++ v).length := by simp
  have hpiece : line.extract u.length (u ++ v).length = v := by
    rw [hline]
    exact extract_between u v w
  rw [← extract_append_extract hi hle, hpiece]

section

variable {start : Nat} {q : Piece} {pieces : List Piece}

theorem Piece.hiddenOption?_eq_some_iff {o : Text} :
    q.hiddenOption? S = some o ↔ ∃ p, q = .pair p ∧ p.isHidden S = true ∧ p.option = o := by
  cases q <;> simp [hiddenOption?]

theorem Piece.redacted_of_none (h : q.hiddenOption? S = none) (token : Text) :
    q.redacted S token = q.text := by
  cases q with
  | gap g => rfl
  | word w => rfl
  | pair p =>
    have hhidden : ¬ p.isHidden S = true := by simpa [hiddenOption?] using h
    rw [redacted, if_neg hhidden, text]

theorem hiddenFrom_cons_of_none (h : q.hiddenOption? S = none) :
    hiddenFrom S start (q :: pieces) = hiddenFrom S (start + q.text.length) pieces := by
  cases q with
  | gap g => rfl
  | word w => rfl
  | pair p =>
    have hhidden : ¬ p.isHidden S = true := by simpa [Piece.hiddenOption?] using h
    rw [hiddenFrom, locate, List.filter_cons_of_neg (by simpa using hhidden)]
    rfl

theorem hiddenFrom_cons_of_isHidden {p : Pair} (h : p.isHidden S = true) :
    hiddenFrom S start (.pair p :: pieces) =
      ⟨p, start⟩ :: hiddenFrom S (start + p.text.length) pieces := by
  rw [hiddenFrom, locate, List.filter_cons_of_pos (by simpa using h)]
  rfl

theorem filterMap_hiddenOption? (S : Text → Bool) (start : Nat) (pieces : List Piece) :
    pieces.filterMap (Piece.hiddenOption? S) =
      (hiddenFrom S start pieces).map fun f => f.pair.option := by
  induction pieces generalizing start with
  | nil => rfl
  | cons q pieces ih =>
    cases h : q.hiddenOption? S with
    | none => rw [List.filterMap_cons_none h, hiddenFrom_cons_of_none h, ih]
    | some o =>
      obtain ⟨p, rfl, hhidden, rfl⟩ := Piece.hiddenOption?_eq_some_iff.1 h
      rw [List.filterMap_cons_some h, hiddenFrom_cons_of_isHidden hhidden, List.map_cons, ih]

theorem splice_hiddenFrom {u : Text} {i : Nat} (hline : line = u ++ flatten pieces)
    (hi : i ≤ u.length) :
    splice token line i (hiddenFrom S u.length pieces) =
      line.extract i u.length ++ pieces.flatMap (Piece.redacted S token) := by
  induction pieces generalizing u i with
  | nil =>
    have hall : line.extract i u.length ++ line.drop u.length = line.drop i :=
      extract_append_drop hi
    have hend : line.drop u.length = [] := by simp [hline]
    rw [List.flatMap_nil, ← hend, hall]
    rfl
  | cons q pieces ih =>
    rw [flatten_cons] at hline
    have hnext : (u ++ q.text).length = u.length + q.text.length := List.length_append
    have hline' : line = (u ++ q.text) ++ flatten pieces := by rw [hline, List.append_assoc]
    cases h : q.hiddenOption? S with
    | none =>
      -- What is put out as it is stands before the next token.
      have hrest := ih hline' (i := i) (by omega)
      rw [hiddenFrom_cons_of_none h, ← hnext, hrest, extract_append_piece hline hi,
        List.flatMap_cons, Piece.redacted_of_none h, List.append_assoc]
    | some o =>
      obtain ⟨p, rfl, hhidden, -⟩ := Piece.hiddenOption?_eq_some_iff.1 h
      have hbinding : p.binding.isSome = true := by
        rw [Pair.isHidden, Bool.and_eq_true] at hhidden
        exact hhidden.1
      have hstem : line = u ++ (p.stem ++ (p.argument?.getD [] ++ flatten pieces)) := by
        rw [hline, Piece.text, p.text_eq_stem_append, List.append_assoc]
      have hstart : (⟨p, u.length⟩ : Found).argumentStart = (u ++ p.stem).length := by
        rw [Found.argumentStart_eq, List.length_append]
      have hstop : (⟨p, u.length⟩ : Found).stop = (u ++ p.text).length := by
        rw [Found.stop, List.length_append]
      have hrest := ih hline' (i := (u ++ p.text).length) (Nat.le_refl _)
      have hnothing : line.extract (u ++ p.text).length (u ++ p.text).length = [] := by simp
      have hredacted : (Piece.pair p).redacted S token = p.stem ++ token := by
        rw [Piece.redacted, if_pos hhidden, Pair.text_withArgument hbinding]
      rw [hiddenFrom_cons_of_isHidden hhidden, splice, hstart, hstop, ← List.length_append]
      rw [Piece.text, hnothing, List.nil_append] at hrest
      rw [hrest, extract_append_piece hstem hi, List.flatMap_cons, hredacted]
      simp only [List.append_assoc]

end

/-! ## The redacted line -/

theorem redactLine_eq_splice (S : Text → Bool) (token line : Text) :
    redactLine S token line = splice token line 0 (hiddenFound S line) := by
  have hline : line = [] ++ flatten (scan line) := (flatten_scan line).symm
  exact (splice_hiddenFrom hline (Nat.le_refl 0)).symm

theorem redactionNotices_eq_map (S : Text → Bool) (line : Text) :
    redactionNotices S line =
      (hiddenFound S line).map fun f => .argumentRedacted f.pair.option := by
  rw [redactionNotices, hiddenOptions, filterMap_hiddenOption? S 0, List.map_map]
  rfl

theorem apart_of_ne {f g : Found} (hf : f ∈ findAll line) (hg : g ∈ findAll line) (hne : f ≠ g) :
    f.stop < g.start ∨ g.stop < f.start := by
  have hapart : (findAll line).Pairwise fun f g => f.stop < g.start ∨ g.stop < f.start :=
    (pairwise_findAll line).imp Or.inl
  have hsymm : Std.Symm fun f g : Found => f.stop < g.start ∨ g.stop < f.start :=
    ⟨fun _ _ => Or.symm⟩
  exact hapart.forall hf hg hne

/-- Stretches of the line that hold nothing of a hidden argument come out as they are. -/
theorem standsAt_redactLine {i j : Nat} (hij : i ≤ j) (hj : j ≤ line.length)
    (houtside : ∀ f ∈ hiddenFound S line, f.stop ≤ i ∨ j ≤ f.argumentStart) :
    StandsAt (redactLine S token line) (i + displacement token (hiddenFound S line) i)
      (line.extract i j) := by
  have hkept :=
    standsAt_splice token (inOrder_hiddenFound S line) (Nat.zero_le i) hij hj houtside
  rw [Int.natCast_zero, Int.sub_zero] at hkept
  rwa [redactLine_eq_splice]

theorem standsAt_spared {f : Found} (hf : f ∈ findAll line) (hshown : f.pair.isHidden S = false) :
    StandsAt (redactLine S token line)
      (f.start + displacement token (hiddenFound S line) f.start) f.pair.text := by
  have hsound := soundIn_of_found hf
  rw [← hsound.text]
  refine standsAt_redactLine (Nat.le_add_right _ _) hsound.stop_le ?_
  intro g hg
  obtain ⟨hg, hhidden⟩ := List.mem_filter.1 hg
  have hne : f ≠ g := by
    rintro rfl
    exact Bool.false_ne_true (hshown.symm.trans hhidden)
  rcases apart_of_ne hf hg hne with hbefore | hbehind
  · exact Or.inr (hbefore.le.trans g.start_le_argumentStart)
  · exact Or.inl hbehind.le

/-- What a redaction of a line does to the spans of its pairs. -/
structure Rewritten (S : Text → Bool) (token line : Text) (hidden : List Found) : Prop where
  redacted : redactLine S token line = splice token line 0 hidden
  unchanged : hidden = [] → redactLine S token line = line
  length : ((redactLine S token line).length : Int) =
    line.length + (hidden.map (Found.growth token)).sum
  replaced : ∀ f ∈ hidden,
    StandsAt (redactLine S token line) (f.argumentStart + displacement token hidden f.argumentStart)
      token
  kept : ∀ i j, i ≤ j → j ≤ line.length → (∀ f ∈ hidden, f.stop ≤ i ∨ j ≤ f.argumentStart) →
    StandsAt (redactLine S token line) (i + displacement token hidden i) (line.extract i j)
  spared : ∀ f ∈ findAll line, f.pair.isHidden S = false →
    StandsAt (redactLine S token line) (f.start + displacement token hidden f.start) f.pair.text
  notices : redactionNotices S line = hidden.map fun f => .argumentRedacted f.pair.option
  messages : (redactionNotices S line).map Notice.message =
    hidden.map fun f => "Redacting argument of option ".toList ++ f.pair.option

/-- A redaction rewrites its line at the spans of the hidden arguments and nowhere else. -/
theorem rewritten_redactLine (S : Text → Bool) (token line : Text) :
    Rewritten S token line (hiddenFound S line) where
  redacted := redactLine_eq_splice S token line
  unchanged := by
    intro hnone
    rw [redactLine_eq_splice, hnone]
    rfl
  length := by
    rw [redactLine_eq_splice, length_splice (inOrder_hiddenFound S line), Int.natCast_zero,
      Int.sub_zero]
  replaced := by
    intro f hf
    have htoken := standsAt_splice_token token (inOrder_hiddenFound S line) hf
    rw [Int.natCast_zero, Int.sub_zero] at htoken
    rwa [redactLine_eq_splice]
  kept := fun _ _ hij hj houtside => standsAt_redactLine hij hj houtside
  spared := fun _ hf hshown => standsAt_spared hf hshown
  notices := redactionNotices_eq_map S line
  messages := by
    rw [redactionNotices_eq_map, List.map_map]
    rfl

/-- The value that is hidden behind one option stays behind the other. -/
example :
    redactLine Dictionary.standard.isSensitive "***".toList "--user=me --password me me".toList =
      "--user=me --password *** me".toList := by
  decide +kernel

end Gatekeeper.Redaction
