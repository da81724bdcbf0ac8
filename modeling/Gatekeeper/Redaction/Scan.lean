import Gatekeeper.Redaction.Pair

/-!
# Scanning a line

A line is cut into pieces from left to right: gaps of whitespace, pairs, and words that are no pair.
A pair is looked for only where a word starts, and without a marker only at the first word. What
follows a pair without a gap is a word.

Main statement: the pieces put together are the line (`flatten_scan`).
-/

namespace Gatekeeper.Redaction

inductive Piece
  | gap (t : Text)
  | word (t : Text)
  | pair (p : Pair)
  deriving DecidableEq

namespace Piece

def text : Piece → Text
  | .gap t => t
  | .word t => t
  | .pair p => p.text

def pair? : Piece → Option Pair
  | .pair p => some p
  | _ => none

end Piece

/-- Where the scan stands: before the first word of the line, at the start of a later word, or
directly behind a piece that is no gap. -/
inductive Place
  | opening
  | boundary
  | inside
  deriving DecidableEq

namespace Place

def afterGap : Place → Place
  | .opening => .opening
  | _ => .boundary

def pair? (place : Place) (t : Text) : Option (Pair × Text) :=
  match place with
  | .opening => Pair.read? true t
  | .boundary => Pair.read? false t
  | .inside => none

/-- The piece at the start of a text, what follows it, and where the scan stands then. -/
def piece (place : Place) (t : Text) : Piece × Text × Place :=
  match t.takeWhile Text.isSpace with
  | [] =>
    match place.pair? t with
    | some (p, rest) => (.pair p, rest, .inside)
    | none => (.word (t.takeWhile isInk), t.dropWhile isInk, .inside)
  | c :: gap => (.gap (c :: gap), t.dropWhile Text.isSpace, place.afterGap)

theorem eq_append_of_pair? {place : Place} {t rest : Text} {p : Pair}
    (h : place.pair? t = some (p, rest)) : t = p.text ++ rest ∧ p.text ≠ [] := by
  cases place with
  | opening => exact ⟨(Pair.eq_append_of_read? h).1, Pair.text_ne_nil_of_read? h⟩
  | boundary => exact ⟨(Pair.eq_append_of_read? h).1, Pair.text_ne_nil_of_read? h⟩
  | inside => simp [pair?] at h

theorem piece_append (place : Place) (t : Text) :
    (place.piece t).1.text ++ (place.piece t).2.1 = t := by
  unfold piece
  split
  · split
    · next p rest h => exact (eq_append_of_pair? h).1.symm
    · exact List.takeWhile_append_dropWhile
  · next c gap h =>
    simp only [Piece.text, ← h]
    exact List.takeWhile_append_dropWhile

theorem piece_ne_nil (place : Place) {t : Text} (ht : t ≠ []) : (place.piece t).1.text ≠ [] := by
  unfold piece
  split
  · next hgap =>
    split
    · next p rest h => exact (eq_append_of_pair? h).2
    · match t, ht with
      | c :: r, _ =>
        have hc : Text.isSpace c = false := by
          by_cases hc : Text.isSpace c = true
          · simp [hc] at hgap
          · simpa using hc
        simp [Piece.text, isInk, hc]
  · simp [Piece.text]

theorem length_piece_lt (place : Place) {t : Text} (ht : t ≠ []) :
    (place.piece t).2.1.length < t.length := by
  have happ := congrArg List.length (piece_append place t)
  have hpos := List.length_pos_iff.2 (piece_ne_nil place ht)
  rw [List.length_append] at happ
  omega

end Place

def scanFrom (place : Place) (t : Text) : List Piece :=
  if _ : t = [] then []
  else
    (place.piece t).1 :: scanFrom (place.piece t).2.2 (place.piece t).2.1
termination_by t.length
decreasing_by exact Place.length_piece_lt place (by assumption)

def scan (line : Text) : List Piece := scanFrom .opening line

def flatten (pieces : List Piece) : Text := pieces.flatMap Piece.text

theorem flatten_scanFrom (place : Place) (t : Text) : flatten (scanFrom place t) = t := by
  fun_induction scanFrom place t with
  | case1 => rfl
  | case2 place t _ ih =>
    rw [flatten, List.flatMap_cons, ← flatten, ih]
    exact Place.piece_append place t

theorem flatten_scan (line : Text) : flatten (scan line) = line := flatten_scanFrom .opening line

/-- A pair with the position of its first character in the line. -/
structure Found where
  pair : Pair
  start : Nat
  deriving DecidableEq

namespace Found

def stop (f : Found) : Nat := f.start + f.pair.text.length

/-- The position of the argument; behind the pair when there is none. -/
def argumentStart (f : Found) : Nat := f.stop - (f.pair.argument?.getD []).length

end Found

/-- The pairs among pieces whose first character has a given position. -/
def locate (start : Nat) : List Piece → List Found
  | [] => []
  | .pair p :: pieces => ⟨p, start⟩ :: locate (start + p.text.length) pieces
  | piece :: pieces => locate (start + piece.text.length) pieces

/-- Every pair of a line, from left to right. -/
def findAll (line : Text) : List Found := locate 0 (scan line)

end Gatekeeper.Redaction
