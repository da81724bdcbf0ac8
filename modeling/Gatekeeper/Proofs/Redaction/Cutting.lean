import Gatekeeper.Redaction.Scan
import Gatekeeper.Proofs.Redaction.WellFormed

/-!
# The scan as a cutting

A piece fits at a place of the line when it is of its kind and cannot be extended by what follows.
Main statement: the scan is the one cutting of a line into pieces that fit (`scanFrom_eq_iff`). What
is known of a scanned line, and what a written line is scanned to, are both read off this.
-/

namespace Gatekeeper.Redaction

variable {p : Char → Bool} {t u v rest : Text}

theorem stops_append_iff (hv : Stops p v) : Stops p (u ++ v) ↔ Stops p u := by
  cases u with
  | nil => simpa using hv
  | cons c u => simp

namespace Pair

theorem readAfter?_eq_none_iff {m : Marker} : readAfter? m t = none ↔ Stops isOptionStart t := by
  rw [← readOption?_eq_none_iff]
  unfold readAfter?
  split
  · simp_all
  · split <;> simp_all

/-- Whether a pair starts at a word is settled within the word. -/
theorem read?_append_eq_none_iff {bare : Bool} (hv : Stops isInk v) (u : Text) :
    read? bare (u ++ v) = none ↔ read? bare u = none := by
  have hstart : Stops isOptionStart v := hv.mono fun _ => isInk_of_isOptionStart
  unfold read?
  rw [Marker.read?_append hv]
  rcases Marker.read? u with _ | ⟨m, r⟩
  · cases bare with
    | false => simp
    | true => simp [readAfter?_eq_none_iff, stops_append_iff hstart]
  · simp [readAfter?_eq_none_iff, stops_append_iff hstart]

theorem WellFormed.exists_text_eq_cons {p : Pair} (h : p.WellFormed) :
    ∃ c k, p.text = c :: k ∧ isOptionChar c = true := by
  by_cases hm : p.marker = .bare
  · obtain ⟨c, o, ho⟩ := List.exists_cons_of_ne_nil h.option.ne_nil
    refine ⟨c, o ++ (p.binding.map Binding.text).getD [], ?_, h.option.chars c (by simp [ho])⟩
    simp [text, hm, Marker.text, ho]
  · obtain ⟨k, hk⟩ := Marker.exists_text_eq_cons hm
    exact ⟨'-', k ++ p.body, by simp [text_eq_append, hk], by decide⟩

theorem WellFormed.stops_isSpace {p : Pair} (h : p.WellFormed) (rest : Text) :
    Stops Text.isSpace (p.text ++ rest) := by
  obtain ⟨c, k, htext, hc⟩ := h.exists_text_eq_cons
  simpa [htext, isInk] using isInk_of_isOptionChar hc

theorem WellFormed.head?_ne_equals {p : Pair} (h : p.WellFormed) (rest : Text) :
    (p.text ++ rest).head? ≠ some '=' := by
  obtain ⟨c, k, htext, hc⟩ := h.exists_text_eq_cons
  intro hequals
  simp_all [isOptionChar]

theorem WellFormed.text_ne_nil {p : Pair} (h : p.WellFormed) : p.text ≠ [] := by
  obtain ⟨c, k, htext, _⟩ := h.exists_text_eq_cons
  simp [htext]

end Pair

namespace Place

/-- Only the first word of a line may start a pair without a marker, and only a word may start
one. -/
def Allows : Place → Marker → Prop
  | .opening, _ => True
  | .boundary, m => m ≠ .bare
  | .inside, _ => False

theorem pair?_eq_some_iff {place : Place} {p : Pair} :
    place.pair? t = some (p, rest) ↔
      t = p.text ++ rest ∧ p.WellFormed ∧ place.Allows p.marker ∧ p.Ends rest := by
  cases place <;> simp [pair?, Allows, Pair.read?_eq_some_iff]

theorem pair?_append_eq_none_iff {place : Place} (hv : Stops isInk v) (u : Text) :
    place.pair? (u ++ v) = none ↔ place.pair? u = none := by
  cases place <;> simp [pair?, Pair.read?_append_eq_none_iff hv]

def after (place : Place) : Piece → Place
  | .gap _ => place.afterGap
  | _ => .inside

end Place

namespace Piece

/-- Whether a piece may be cut off at a place in front of `rest`. -/
def Fits (place : Place) (rest : Text) : Piece → Prop
  | .gap g => g ≠ [] ∧ Text.isBlank g = true ∧ Stops Text.isSpace rest
  | .word w => w ≠ [] ∧ (∀ c ∈ w, isInk c = true) ∧ Stops isInk rest ∧ place.pair? w = none
  | .pair p => p.WellFormed ∧ place.Allows p.marker ∧ p.Ends rest

theorem Fits.text_ne_nil {place : Place} {q : Piece} (h : q.Fits place rest) : q.text ≠ [] := by
  cases q with
  | gap g => exact h.1
  | word w => exact h.1
  | pair p => exact h.1.text_ne_nil

end Piece

namespace Place

theorem fits_piece (place : Place) (ht : t ≠ []) :
    (place.piece t).1.Fits place (place.piece t).2.1 ∧
      (place.piece t).2.2 = place.after (place.piece t).1 := by
  unfold piece
  split
  · next hgap =>
    split
    · next p rest hp =>
      obtain ⟨_, hwf, hallows, hends⟩ := pair?_eq_some_iff.1 hp
      exact ⟨⟨hwf, hallows, hends⟩, rfl⟩
    · next hp =>
      have hstop : Stops isInk (t.dropWhile isInk) := stops_dropWhile _ _
      have hword : t.takeWhile isInk ≠ [] := by
        obtain ⟨c, k, rfl⟩ := List.exists_cons_of_ne_nil ht
        by_cases hc : Text.isSpace c = true <;> simp_all [isInk]
      rw [← List.takeWhile_append_dropWhile (p := isInk) (l := t),
        pair?_append_eq_none_iff hstop] at hp
      exact ⟨⟨hword, fun c hc => of_mem_takeWhile hc, hstop, hp⟩, rfl⟩
  · next c gap hgap =>
    refine ⟨⟨by simp, ?_, stops_dropWhile _ _⟩, rfl⟩
    rw [← hgap, Text.isBlank]
    exact List.all_takeWhile

theorem piece_append_of_fits {place : Place} {q : Piece} (h : q.Fits place rest) :
    place.piece (q.text ++ rest) = (q, rest, place.after q) := by
  cases q with
  | gap g =>
    obtain ⟨hne, hblank, hstop⟩ := h
    obtain ⟨c, g, rfl⟩ := List.exists_cons_of_ne_nil hne
    have hall : ∀ d ∈ c :: g, Text.isSpace d = true := List.all_eq_true.1 hblank
    unfold piece
    simp only [Piece.text, hstop.takeWhile_append, hstop.dropWhile_append,
      List.takeWhile_eq_self_iff.2 hall, List.dropWhile_eq_nil_iff.2 hall, List.nil_append, after]
  | word w =>
    obtain ⟨hne, hink, hstop, hpair⟩ := h
    have hspace : (w ++ rest).takeWhile Text.isSpace = [] := by
      obtain ⟨c, w, rfl⟩ := List.exists_cons_of_ne_nil hne
      have hc : Text.isSpace c = false := by simpa [isInk] using hink c (by simp)
      simp [hc]
    unfold piece
    simp only [Piece.text, hspace, (pair?_append_eq_none_iff hstop w).2 hpair,
      hstop.takeWhile_append, hstop.dropWhile_append, List.takeWhile_eq_self_iff.2 hink,
      List.dropWhile_eq_nil_iff.2 hink, List.nil_append, after]
  | pair p =>
    obtain ⟨hwf, hallows, hends⟩ := h
    have hspace : (p.text ++ rest).takeWhile Text.isSpace = [] := by
      have hstop := hwf.stops_isSpace rest
      simpa using hstop.takeWhile_append []
    unfold piece
    simp only [Piece.text, hspace, pair?_eq_some_iff.2 ⟨rfl, hwf, hallows, hends⟩, after]

end Place

@[simp] theorem flatten_nil : flatten [] = [] := rfl

@[simp] theorem flatten_cons (q : Piece) (pieces : List Piece) :
    flatten (q :: pieces) = q.text ++ flatten pieces := by
  simp [flatten]

@[simp] theorem flatten_append (before after : List Piece) :
    flatten (before ++ after) = flatten before ++ flatten after := by
  simp [flatten]

def Fitting (place : Place) : List Piece → Prop
  | [] => True
  | q :: pieces => q.Fits place (flatten pieces) ∧ Fitting (place.after q) pieces

theorem fitting_scanFrom (place : Place) (t : Text) : Fitting place (scanFrom place t) := by
  fun_induction scanFrom place t with
  | case1 => trivial
  | case2 place t ht ih =>
    obtain ⟨hfits, hafter⟩ := place.fits_piece ht
    rw [hafter] at ih
    refine ⟨?_, by rw [hafter]; exact ih⟩
    rw [flatten_scanFrom]
    exact hfits

theorem scanFrom_flatten {place : Place} {pieces : List Piece} (h : Fitting place pieces) :
    scanFrom place (flatten pieces) = pieces := by
  induction pieces generalizing place with
  | nil => simp [scanFrom]
  | cons q pieces ih =>
    obtain ⟨hfits, hrest⟩ := h
    have hne : flatten (q :: pieces) ≠ [] := by simp [hfits.text_ne_nil]
    have hpiece : place.piece (flatten (q :: pieces)) = (q, flatten pieces, place.after q) := by
      rw [flatten_cons]
      exact Place.piece_append_of_fits hfits
    rw [scanFrom, dif_neg hne, hpiece, ih hrest]

theorem Fitting.exists_fits {place : Place} {before after : List Piece} {q : Piece}
    (h : Fitting place (before ++ q :: after)) : ∃ place', q.Fits place' (flatten after) := by
  induction before generalizing place with
  | nil => exact ⟨place, h.1⟩
  | cons q' before ih => exact ih h.2

theorem scanFrom_eq_iff {place : Place} {pieces : List Piece} :
    scanFrom place t = pieces ↔ flatten pieces = t ∧ Fitting place pieces := by
  constructor
  · intro hpieces
    rw [← hpieces]
    exact ⟨flatten_scanFrom place t, fitting_scanFrom place t⟩
  · intro ⟨ht, h⟩
    rw [← ht]
    exact scanFrom_flatten h

theorem exists_of_mem_locate {start : Nat} {f : Found} {pieces : List Piece}
    (h : f ∈ locate start pieces) :
    ∃ before after, pieces = before ++ .pair f.pair :: after ∧
      f.start = start + (flatten before).length := by
  induction pieces generalizing start with
  | nil => simp [locate] at h
  | cons q pieces ih =>
    have hskip : f ∈ locate (start + q.text.length) pieces →
        ∃ before after, q :: pieces = before ++ .pair f.pair :: after ∧
          f.start = start + (flatten before).length := by
      intro hf
      obtain ⟨before, after, rfl, hstart⟩ := ih hf
      exact ⟨q :: before, after, rfl, by simp [hstart, Nat.add_assoc]⟩
    cases q with
    | gap g => exact hskip h
    | word w => exact hskip h
    | pair p =>
      rcases List.mem_cons.1 h with rfl | hf
      · exact ⟨[], pieces, rfl, rfl⟩
      · exact hskip hf

theorem exists_of_mem_findAll {line : Text} {f : Found} (h : f ∈ findAll line) :
    ∃ before after, scan line = before ++ .pair f.pair :: after ∧
      f.start = (flatten before).length ∧
      line = flatten before ++ (f.pair.text ++ flatten after) := by
  obtain ⟨before, after, hscan, hstart⟩ := exists_of_mem_locate h
  refine ⟨before, after, hscan, by simpa using hstart, ?_⟩
  rw [← flatten_scan line, hscan]
  simp [Piece.text]

end Gatekeeper.Redaction
