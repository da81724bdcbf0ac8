/-!
# Text

A text is the list of its code points: a length, a position and a cut all count code points, and a
text taken apart is put together again by `++`.

Main statements: joining the segments of a text gives the text back (`joined_segments`), and no
segment holds the mark (`not_mem_of_mem_segments`).
-/

namespace Gatekeeper

abbrev Text := List Char

namespace Text

def consHead (c : Char) : List Text → List Text
  | [] => [[c]]
  | piece :: pieces => (c :: piece) :: pieces

/-- What stands between the occurrences of `mark`: one segment more than there are marks. -/
def segments (mark : Char) : Text → List Text
  | [] => [[]]
  | c :: rest => if c = mark then [] :: segments mark rest else consHead c (segments mark rest)

/-- The pieces in order, with `separator` between any two. -/
def joined (separator : Text) : List Text → Text
  | [] => []
  | [piece] => piece
  | piece :: next :: pieces => piece ++ separator ++ joined separator (next :: pieces)

/-- Whether `part` stands somewhere in the text. -/
def occursIn (part : Text) : Text → Bool
  | [] => part.isEmpty
  | c :: rest => part.isPrefixOf (c :: rest) || occursIn part rest

/-- The text up to the first `mark`, and what follows the mark if there is one. -/
def cutAt (mark : Char) : Text → Text × Option Text
  | [] => ([], none)
  | c :: rest =>
    if c = mark then ([], some rest) else
      let (before, after) := cutAt mark rest
      (c :: before, after)

theorem segments_ne_nil (mark : Char) (t : Text) : segments mark t ≠ [] := by
  cases t with
  | nil => simp [segments]
  | cons c rest =>
    by_cases h : c = mark
    · simp [segments, h]
    · cases hs : segments mark rest <;> simp [segments, h, hs, consHead]

theorem joined_consHead (separator : Text) (c : Char) {pieces : List Text} (h : pieces ≠ []) :
    joined separator (consHead c pieces) = c :: joined separator pieces := by
  match pieces, h with
  | [piece], _ => rfl
  | piece :: next :: pieces, _ => rfl

theorem joined_segments (mark : Char) (t : Text) : joined [mark] (segments mark t) = t := by
  induction t with
  | nil => rfl
  | cons c rest ih =>
    by_cases h : c = mark
    · obtain ⟨piece, pieces, hs⟩ := List.exists_cons_of_ne_nil (segments_ne_nil mark rest)
      rw [hs] at ih
      simp [segments, h, hs, joined, ih]
    · simp [segments, h, joined_consHead _ _ (segments_ne_nil mark rest), ih]

theorem not_mem_of_mem_segments {mark : Char} {t piece : Text} (h : piece ∈ segments mark t) :
    mark ∉ piece := by
  induction t generalizing piece with
  | nil => simp_all [segments]
  | cons c rest ih =>
    by_cases hc : c = mark
    · simp only [segments, hc, if_true, List.mem_cons] at h
      rcases h with rfl | h
      · simp
      · exact ih h
    · cases hs : segments mark rest with
      | nil => exact absurd hs (segments_ne_nil mark rest)
      | cons first others =>
        rw [hs] at ih
        simp only [segments, hc, if_false, hs, consHead, List.mem_cons] at h
        rcases h with rfl | h
        · have hfirst : mark ∉ first := ih (by simp)
          simp [hfirst, Ne.symm hc]
        · exact ih (by simp [h])

end Text
end Gatekeeper
