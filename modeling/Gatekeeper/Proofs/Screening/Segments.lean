import Gatekeeper.Screening.AcceptPattern
import Gatekeeper.Screening.Pattern

/-!
# Segments of joined clauses

Clauses are joined with a mark and taken apart at it again. What is left when blank segments are
dropped are the full segments, and joining neither loses, merges nor reorders them
(`fullSegments_appendAll`). A pattern is read segment by segment, up to the first malformed one
(`Pattern.read_eq`).
-/

namespace Gatekeeper

namespace Text

variable {mark : Char} {t u v piece : Text}

theorem segments_eq_splitOn (mark : Char) (t : Text) : segments mark t = t.splitOn mark := by
  induction t with
  | nil => simp [segments]
  | cons c t ih =>
    rw [List.splitOn_cons_eq_if_modifyHead, ← ih, segments]
    obtain ⟨first, others, hs⟩ := List.exists_cons_of_ne_nil (segments_ne_nil mark t)
    simp [hs, consHead]

theorem joined_eq_intercalate (separator : Text) (pieces : List Text) :
    joined separator pieces = separator.intercalate pieces := by
  induction pieces with
  | nil => rfl
  | cons piece pieces ih =>
    cases pieces with
    | nil => simp [joined]
    | cons next pieces => simp [joined, ih, List.intercalate, List.intersperse]

theorem segments_append_cons (mark : Char) (u v : Text) :
    segments mark (u ++ mark :: v) = segments mark u ++ segments mark v := by
  simp only [segments_eq_splitOn, List.splitOn_append_cons_self]

theorem segments_of_not_mem (h : mark ∉ t) : segments mark t = [t] := by
  rw [segments_eq_splitOn, List.splitOn_eq_singleton h]

theorem segments_joined {pieces : List Text} (hne : pieces ≠ [])
    (h : ∀ piece ∈ pieces, mark ∉ piece) : segments mark (joined [mark] pieces) = pieces := by
  rw [segments_eq_splitOn, joined_eq_intercalate]
  exact List.splitOn_intercalate mark h hne

theorem mem_of_mem_segments (h : piece ∈ segments mark t) {c : Char} (hc : c ∈ piece) : c ∈ t := by
  induction t generalizing piece with
  | nil => simp_all [segments]
  | cons d t ih =>
    by_cases hd : d = mark
    · simp only [segments, hd, if_true, List.mem_cons] at h
      rcases h with rfl | h
      · simp at hc
      · exact List.mem_cons_of_mem d (ih h hc)
    · obtain ⟨first, others, hs⟩ := List.exists_cons_of_ne_nil (segments_ne_nil mark t)
      rw [hs] at ih
      simp only [segments, hd, if_false, hs, consHead, List.mem_cons] at h
      rcases h with rfl | h
      · rcases List.mem_cons.1 hc with rfl | hc
        · simp
        · exact List.mem_cons_of_mem d (ih (by simp) hc)
      · exact List.mem_cons_of_mem d (ih (by simp [h]) hc)

def fullSegments (mark : Char) (t : Text) : List Text :=
  (segments mark t).filter fun segment => !isBlank segment

@[simp] theorem fullSegments_nil (mark : Char) : fullSegments mark [] = [] := rfl

theorem fullSegments_append_cons (mark : Char) (u v : Text) :
    fullSegments mark (u ++ mark :: v) = fullSegments mark u ++ fullSegments mark v := by
  rw [fullSegments, segments_append_cons, List.filter_append]
  rfl

theorem fullSegments_of_isBlank (mark : Char) (h : isBlank t = true) :
    fullSegments mark t = [] := by
  apply List.filter_eq_nil_iff.2
  intro segment hsegment
  have hblank : isBlank segment = true := by
    apply List.all_eq_true.2
    intro c hc
    exact List.all_eq_true.1 h c (mem_of_mem_segments hsegment hc)
  simp [hblank]

/-- A full segment is the one segment of its own text. -/
theorem fullSegments_of_mem (h : piece ∈ fullSegments mark t) :
    fullSegments mark piece = [piece] := by
  obtain ⟨hmem, hfull⟩ := List.mem_filter.1 h
  rw [fullSegments, segments_of_not_mem (not_mem_of_mem_segments hmem)]
  simpa using hfull

end Text

namespace Screening

open Text (fullSegments)

theorem clauseTexts_eq_fullSegments (source : Text) :
    clauseTexts source = fullSegments ';' source :=
  rfl

/-! ## Joining -/

theorem fullSegments_joinClause (mark : Char) (text clause : Text) :
    fullSegments mark (joinClause [mark] text clause) =
      fullSegments mark text ++ fullSegments mark clause := by
  unfold joinClause
  split
  · next h =>
    rw [Bool.or_eq_true, List.isEmpty_iff, List.isSuffixOf_iff_suffix] at h
    rcases h with rfl | ⟨k, rfl⟩
    · rfl
    · -- The mark at the end has a blank segment behind it, which does not count.
      rw [List.append_assoc, List.singleton_append, Text.fullSegments_append_cons,
        Text.fullSegments_append_cons]
      simp
  · rw [List.append_assoc, List.singleton_append, Text.fullSegments_append_cons]

/-- What a clause that may be absent adds. -/
def clauseSegments (mark : Char) (clause : Option Text) : List Text :=
  (clause.map (fullSegments mark)).getD []

namespace Joiner

variable {mark : Char} {j : Joiner}

theorem delimiter_append (j : Joiner) (clause : Option Text) :
    (j.append clause).delimiter = j.delimiter := by
  cases clause with
  | none => rfl
  | some clause =>
    simp only [append]
    split <;> rfl

theorem fullSegments_append (h : j.delimiter = [mark]) (clause : Option Text) :
    fullSegments mark (j.append clause).text =
      fullSegments mark j.text ++ clauseSegments mark clause := by
  cases clause with
  | none => simp [append, clauseSegments]
  | some clause =>
    by_cases hblank : Text.isBlank clause = true
    · simp [append, clauseSegments, hblank, Text.fullSegments_of_isBlank mark hblank]
    · simp [append, clauseSegments, hblank, h, fullSegments_joinClause]

theorem fullSegments_start (mark : Char) (first : Option Text) :
    fullSegments mark (start [mark] first).text = clauseSegments mark first :=
  fullSegments_append rfl first

theorem fullSegments_appendAll (h : j.delimiter = [mark]) (clauses : List (Option Text)) :
    fullSegments mark (j.appendAll clauses).text =
      fullSegments mark j.text ++ clauses.flatMap (clauseSegments mark) := by
  induction clauses generalizing j with
  | nil => simp [appendAll]
  | cons clause clauses ih =>
    have hstep := ih ((delimiter_append j clause).trans h)
    rw [fullSegments_append h, List.append_assoc] at hstep
    exact hstep

end Joiner

/-! ## Reading -/

theorem readClauses_eq (ts : List Text) :
    readClauses ts =
      match ts.find? fun t => (Clause.read? t).isNone with
      | some t => .error (.malformedClause t)
      | none => .ok (ts.filterMap Clause.read?) := by
  induction ts with
  | nil => rfl
  | cons t ts ih =>
    cases hc : Clause.read? t with
    | none => simp [readClauses, readClause, hc]
    | some c =>
      simp only [readClauses, readClause, hc, ih, List.find?_cons, Option.isNone_some,
        List.filterMap_cons]
      cases ts.find? fun t => (Clause.read? t).isNone <;> rfl

theorem Pattern.read_eq (source : Text) :
    Pattern.read source =
      match (clauseTexts source).find? fun t => (Clause.read? t).isNone with
      | some t => .error (.malformedClause t)
      | none => .ok ⟨source, (clauseTexts source).filterMap Clause.read?⟩ := by
  rw [Pattern.read, readClauses_eq]
  cases (clauseTexts source).find? fun t => (Clause.read? t).isNone <;> rfl

theorem Pattern.read_eq_malformed_iff {source : Text} :
    (∃ t, Pattern.read source = .error (.malformedClause t)) ↔
      ∃ t ∈ clauseTexts source, Clause.read? t = none := by
  rw [Pattern.read_eq]
  cases hfind : (clauseTexts source).find? fun t => (Clause.read? t).isNone with
  | none =>
    have hall := List.find?_eq_none.1 hfind
    simp_all
  | some t =>
    have hnone : Clause.read? t = none := by simpa using List.find?_some hfind
    have hmem : t ∈ clauseTexts source := List.mem_of_find?_eq_some hfind
    simp only [Except.error.injEq, Fault.malformedClause.injEq, exists_eq', true_iff]
    exact ⟨t, hmem, hnone⟩

theorem Pattern.clauses_of_read {source : Text} {p : Pattern} (h : Pattern.read source = .ok p) :
    p.clauses = (clauseTexts source).filterMap Clause.read? := by
  rw [Pattern.read_eq] at h
  split at h
  · simp at h
  · rw [← Except.ok.inj h]

end Screening
end Gatekeeper
