import Gatekeeper.Proofs.Redaction.Cutting

/-!
# Positions in a scanned line

The pairs of a line stand in order and do not overlap (`stop_le_start`), and every position of the
line is in one of its pieces (`exists_piece_at`). Where the scan stands says how the text read so
far ends: each piece keeps `Place.Follows`, so it holds in front of every piece (`exists_follows`).
-/

namespace Gatekeeper.Redaction

variable {u rest : Text} {place : Place} {pieces before after : List Piece} {q : Piece}

/-! ## Spans -/

theorem start_le_of_mem_locate {start : Nat} {f : Found} (h : f ∈ locate start pieces) :
    start ≤ f.start := by
  obtain ⟨before, _, _, hstart⟩ := exists_of_mem_locate h
  omega

theorem pairwise_locate (start : Nat) (pieces : List Piece) :
    (locate start pieces).Pairwise fun f g => f.stop ≤ g.start := by
  induction pieces generalizing start with
  | nil => exact List.Pairwise.nil
  | cons q pieces ih =>
    cases q with
    | gap g => exact ih _
    | word w => exact ih _
    | pair p =>
      apply List.pairwise_cons.2
      exact ⟨fun g hg => start_le_of_mem_locate hg, ih _⟩

theorem stop_le_start {line : Text} {f g : Found} (hf : f ∈ findAll line) (hg : g ∈ findAll line)
    (hlt : f.start < g.start) : f.stop ≤ g.start := by
  have hpairwise : (findAll line).Pairwise fun f g => f.stop ≤ g.start := pairwise_locate 0 _
  have hordered := List.pairwise_iff_getElem.1 hpairwise
  obtain ⟨i, hi, rfl⟩ := List.getElem_of_mem hf
  obtain ⟨j, hj, rfl⟩ := List.getElem_of_mem hg
  rcases Nat.lt_trichotomy i j with hij | rfl | hji
  · exact hordered i j hi hj hij
  · omega
  · -- Were `g` the earlier one, `f` would start behind it.
    have hback := hordered j i hj hi hji
    have hself : (findAll line)[j].start ≤ (findAll line)[j].stop := Nat.le_add_right _ _
    omega

theorem mem_locate_of_pair (start : Nat) (before after : List Piece) (p : Pair) :
    ⟨p, start + (flatten before).length⟩ ∈ locate start (before ++ .pair p :: after) := by
  induction before generalizing start with
  | nil => simp [locate]
  | cons q before ih =>
    have hrest := ih (start + q.text.length)
    rw [Nat.add_assoc, ← List.length_append, ← flatten_cons] at hrest
    cases q with
    | gap g => exact hrest
    | word w => exact hrest
    | pair p' => exact List.mem_cons_of_mem _ hrest

theorem mem_findAll_of_scan {line : Text} {p : Pair} (h : scan line = before ++ .pair p :: after) :
    ⟨p, (flatten before).length⟩ ∈ findAll line := by
  have hmem := mem_locate_of_pair 0 before after p
  rwa [Nat.zero_add, ← h] at hmem

theorem exists_piece_at {i : Nat} (h : i < (flatten pieces).length) :
    ∃ before q after, pieces = before ++ q :: after ∧ (flatten before).length ≤ i ∧
      i < (flatten before).length + q.text.length := by
  induction pieces generalizing i with
  | nil => simp at h
  | cons q pieces ih =>
    by_cases hi : i < q.text.length
    · exact ⟨[], q, pieces, rfl, by simp, by simpa using hi⟩
    · rw [flatten_cons, List.length_append] at h
      have hrest : i - q.text.length < (flatten pieces).length := by omega
      obtain ⟨before, q', after, rfl, hle, hlt⟩ := ih hrest
      refine ⟨q :: before, q', after, rfl, ?_⟩
      rw [flatten_cons, List.length_append]
      omega

/-! ## Where the scan stands -/

/-- Whether the scan may stand at a place when it has read `u`. -/
def Place.Follows : Place → Text → Prop
  | .opening, u => Text.isBlank u = true
  | .boundary, u => Text.isBlank u = false ∧ ∃ c ∈ u.getLast?, Text.isSpace c = true
  | .inside, u => ∃ c ∈ u.getLast?, isInk c = true

theorem exists_getLast?_append {P : Char → Prop} {v : Text} (h : ∃ c ∈ v.getLast?, P c) (u : Text) :
    ∃ c ∈ (u ++ v).getLast?, P c := by
  obtain ⟨c, hc, hP⟩ := h
  exact ⟨c, by simp [List.getLast?_append, Option.mem_def.1 hc], hP⟩

theorem exists_getLast?_of_forall {P : Char → Prop} {v : Text} (hne : v ≠ []) (h : ∀ c ∈ v, P c) :
    ∃ c ∈ v.getLast?, P c :=
  ⟨v.getLast hne, List.getLast?_eq_some_getLast hne, h _ (List.getLast_mem hne)⟩

theorem isBlank_eq_false_of_isInk {c : Char} (hc : c ∈ u) (hink : isInk c = true) :
    Text.isBlank u = false := by
  rw [Text.isBlank, List.all_eq_false]
  refine ⟨c, hc, ?_⟩
  simpa [isInk] using hink

theorem IsArgument.exists_isInk_getLast? {a : Text} (h : IsArgument a) (hclosed : ¬ IsOpenQuote a) :
    ∃ c ∈ a.getLast?, isInk c = true := by
  rcases h with hrun | ⟨body, tail, _, htail, rfl⟩ | hopen
  · exact exists_getLast?_of_forall hrun.1 hrun.2.1
  · have hquoted : ∀ c ∈ '"' :: tail, isInk c = true := by
      intro c hc
      rcases List.mem_cons.1 hc with rfl | hc
      · decide
      · exact htail c hc
    exact exists_getLast?_append (exists_getLast?_of_forall (by simp) hquoted) ('"' :: body)
  · exact absurd hopen hclosed

/-- Only an open quote ends in whitespace, and nothing follows that. -/
theorem Pair.exists_isInk_getLast? {p : Pair} (h : p.WellFormed) (hends : p.Ends rest)
    (hrest : rest ≠ []) : ∃ c ∈ p.text.getLast?, isInk c = true := by
  obtain ⟨marker, option, binding⟩ := p
  cases binding with
  | none =>
    have hoption : ∃ c ∈ option.getLast?, isInk c = true :=
      exists_getLast?_of_forall h.option.ne_nil fun c hc =>
        isInk_of_isOptionChar (h.option.chars c hc)
    simpa [Pair.text] using exists_getLast?_append hoption marker.text
  | some b =>
    have hclosed : ¬ IsOpenQuote b.argument := fun hopen => hrest (hends.2 hopen)
    have hargument := (h.binding b rfl).argument.exists_isInk_getLast? hclosed
    simpa [Pair.text, Binding.text] using
      exists_getLast?_append hargument (marker.text ++ option ++ b.assignment)

theorem Place.Follows.afterGap {g : Text} (h : place.Follows u) (hne : g ≠ [])
    (hblank : Text.isBlank g = true) : place.afterGap.Follows (u ++ g) := by
  have hspace : ∃ c ∈ (u ++ g).getLast?, Text.isSpace c = true :=
    exists_getLast?_append (exists_getLast?_of_forall hne (List.all_eq_true.1 hblank)) u
  have hboth : Text.isBlank (u ++ g) = (Text.isBlank u && Text.isBlank g) := List.all_append
  cases place with
  | opening =>
    refine hboth.trans ?_
    rw [h, hblank]
    rfl
  | boundary =>
    refine ⟨hboth.trans ?_, hspace⟩
    rw [h.1]
    rfl
  | inside =>
    obtain ⟨c, hc, hink⟩ := h
    have hmem : c ∈ u ++ g := List.mem_append_left g (List.mem_of_mem_getLast? hc)
    exact ⟨isBlank_eq_false_of_isInk hmem hink, hspace⟩

theorem Place.Follows.append_piece (h : place.Follows u) (hq : q.Fits place rest)
    (hrest : rest ≠ []) :
    (place.after q).Follows (u ++ q.text) := by
  cases q with
  | gap g => exact h.afterGap hq.1 hq.2.1
  | word w => exact exists_getLast?_append (exists_getLast?_of_forall hq.1 hq.2.1) u
  | pair p => exact exists_getLast?_append (p.exists_isInk_getLast? hq.1 hq.2.2 hrest) u

theorem Fitting.exists_follows (h : Fitting place (before ++ q :: after)) (hu : place.Follows u) :
    ∃ place' : Place, place'.Follows (u ++ flatten before) ∧ q.Fits place' (flatten after) := by
  induction before generalizing place u with
  | nil => exact ⟨place, by simpa using hu, h.1⟩
  | cons q' before ih =>
    obtain ⟨hfits, hfitting⟩ := h
    obtain ⟨_, hq⟩ := hfitting.exists_fits
    have hrest : flatten (before ++ q :: after) ≠ [] := by simp [hq.text_ne_nil]
    have hstep := ih hfitting (hu.append_piece hfits hrest)
    simpa using hstep

theorem exists_follows_of_scan {line : Text} (h : scan line = before ++ q :: after) :
    ∃ place : Place, place.Follows (flatten before) ∧ q.Fits place (flatten after) := by
  have hfitting := fitting_scanFrom .opening line
  rw [← scan, h] at hfitting
  exact hfitting.exists_follows (u := []) rfl

end Gatekeeper.Redaction
