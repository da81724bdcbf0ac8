import Gatekeeper.Proofs.Screening.Segments
import Mathlib.Data.List.Chain
import Mathlib.Data.List.Infix

/-!
# Joined values

A joiner is started with a value and given others, any of which may be absent or blank. Main
statement: the text that comes of it has the full segments of the values, one after the other; it
only grows, and it neither starts with the delimiter nor doubles it unless a value brings that along
(`gathers_values`). The texts on the way are the history of the joiner.
-/

namespace Gatekeeper.Screening

open Text (fullSegments)

variable {mark : Char} {t clause : Text} {value : Option Text} {values : List (Option Text)}

def fullValues (values : List (Option Text)) : List Text :=
  values.filterMap (Option.filter fun v => !Text.isBlank v)

namespace Joiner

/-- The text of a joiner that is started with the first value and given the others. -/
def joined (mark : Char) : List (Option Text) → Text
  | [] => []
  | first :: values => ((start [mark] first).appendAll values).text

/-- What a joiner gathers from values, the first of them included. -/
structure Gathers (mark : Char) (values : List (Option Text)) : Prop where
  history : Joiner.history (some [mark]) [] (values.map Value.ofText?) =
    .ok (values.inits.tail.map (joined mark))
  segments : fullSegments mark (joined mark values) = values.flatMap (clauseSegments mark)
  grows : ∀ earlier value later, values = earlier ++ value :: later →
    joined mark earlier <+: joined mark (earlier ++ [value])
  unchanged : ∀ earlier value later, values = earlier ++ value :: later →
    Text.isBlank? value = true → joined mark (earlier ++ [value]) = joined mark earlier
  starts : (joined mark values).head? = some mark →
    ∃ first ∈ (fullValues values).head?, first.head? = some mark
  doubled : [mark, mark] <:+: joined mark values →
    ∃ v, some v ∈ values ∧ (v.head? = some mark ∨ [mark, mark] <:+: v)

/-! ## One value -/

theorem exists_of_not_isBlank? (h : ¬ Text.isBlank? value = true) :
    ∃ clause, value = some clause ∧ Text.isBlank clause = false := by
  cases value with
  | none => exact absurd rfl h
  | some clause => exact ⟨clause, rfl, Bool.eq_false_iff.2 h⟩

theorem append_of_isBlank? (h : Text.isBlank? value = true) (j : Joiner) : j.append value = j := by
  cases value with
  | none => rfl
  | some clause =>
    have hblank : Text.isBlank clause = true := h
    rw [append, if_pos hblank]

theorem append_of_not_isBlank (h : Text.isBlank clause = false) (j : Joiner) :
    j.append (some clause) = ⟨j.delimiter, joinClause j.delimiter j.text clause⟩ := by
  rw [append, if_neg (by simp [h])]

theorem prefix_joinClause (delimiter t clause : Text) : t <+: joinClause delimiter t clause := by
  unfold joinClause
  split
  · exact List.prefix_append t clause
  · exact (List.prefix_append t delimiter).trans (List.prefix_append _ clause)

theorem prefix_append (j : Joiner) (value : Option Text) : j.text <+: (j.append value).text := by
  by_cases hblank : Text.isBlank? value = true
  · rw [append_of_isBlank? hblank]
  · obtain ⟨clause, rfl, hfull⟩ := exists_of_not_isBlank? hblank
    rw [append_of_not_isBlank hfull]
    exact prefix_joinClause j.delimiter j.text clause

/-! ## Doubled marks -/

def Single (mark : Char) (t : Text) : Prop := t.IsChain fun a b => ¬ (a = mark ∧ b = mark)

theorem single_iff : Single mark t ↔ ¬ [mark, mark] <:+: t := by
  rw [Single, List.isChain_iff_forall_rel_of_append_cons_cons]
  constructor
  · rintro h ⟨u, v, huv⟩
    exact h (a := mark) (b := mark) (by simpa using huv.symm) ⟨rfl, rfl⟩
  · rintro h a b u v ht ⟨rfl, rfl⟩
    exact h ⟨u, v, by simp [ht]⟩

theorem single_joinClause (ht : Single mark t) (hstart : clause.head? ≠ some mark)
    (hclause : Single mark clause) : Single mark (joinClause [mark] t clause) := by
  have hjunction : ∀ a, ∀ b ∈ clause.head?, ¬ (a = mark ∧ b = mark) := by
    rintro a b hb ⟨-, rfl⟩
    exact hstart hb
  unfold joinClause
  split
  · exact List.isChain_append.2 ⟨ht, hclause, fun a _ => hjunction a⟩
  · next hopen =>
    -- A mark is written only where the text does not end in one.
    have hlast : t.getLast? ≠ some mark := by
      intro hlast
      rw [← List.singleton_suffix_iff_getLast?_eq_some, ← List.isSuffixOf_iff_suffix] at hlast
      simp [hlast] at hopen
    rw [List.append_assoc, List.singleton_append]
    refine List.isChain_append.2 ⟨ht, List.isChain_cons.2 ⟨hjunction mark, hclause⟩, ?_⟩
    rintro a ha b - ⟨rfl, -⟩
    exact hlast ha

/-! ## Many values -/

theorem mem_of_mem_fullValues {v : Text} (h : v ∈ fullValues values) :
    some v ∈ values ∧ Text.isBlank v = false := by
  obtain ⟨value, hvalue, hv⟩ := List.mem_filterMap.1 h
  obtain ⟨rfl, hfull⟩ := Option.filter_eq_some_iff.1 hv
  exact ⟨hvalue, by simpa using hfull⟩

theorem fullValues_cons_of_isBlank? (h : Text.isBlank? value = true) :
    fullValues (value :: values) = fullValues values := by
  apply List.filterMap_cons_none
  cases value with
  | none => rfl
  | some clause =>
    have hblank : Text.isBlank clause = true := h
    simp [hblank]

theorem fullValues_cons_of_not_isBlank (h : Text.isBlank clause = false) :
    fullValues (some clause :: values) = clause :: fullValues values :=
  List.filterMap_cons_some (by simp [h])

/-- Absent and blank values leave no trace. -/
theorem text_appendAll (j : Joiner) (values : List (Option Text)) :
    (j.appendAll values).text = (fullValues values).foldl (joinClause j.delimiter) j.text := by
  induction values generalizing j with
  | nil => rfl
  | cons value values ih =>
    have hstep : j.appendAll (value :: values) = (j.append value).appendAll values := rfl
    rw [hstep, ih, delimiter_append]
    by_cases hblank : Text.isBlank? value = true
    · rw [append_of_isBlank? hblank, fullValues_cons_of_isBlank? hblank]
    · obtain ⟨clause, rfl, hfull⟩ := exists_of_not_isBlank? hblank
      rw [append_of_not_isBlank hfull, fullValues_cons_of_not_isBlank hfull, List.foldl_cons]

theorem joined_eq (mark : Char) (values : List (Option Text)) :
    joined mark values = (appendAll ⟨[mark], []⟩ values).text := by
  cases values <;> rfl

theorem joined_append (mark : Char) (values : List (Option Text)) (value : Option Text) :
    joined mark (values ++ [value]) = ((appendAll ⟨[mark], []⟩ values).append value).text := by
  rw [joined_eq, appendAll, List.foldl_append]
  rfl

theorem prefix_foldl (delimiter t : Text) (clauses : List Text) :
    t <+: clauses.foldl (joinClause delimiter) t := by
  induction clauses generalizing t with
  | nil => exact List.prefix_rfl
  | cons clause clauses ih => exact (prefix_joinClause delimiter t clause).trans (ih _)

/-- The text starts with the first full value. -/
theorem head?_joined (mark : Char) (values : List (Option Text)) :
    (joined mark values).head? = (fullValues values).head?.bind List.head? := by
  rw [joined_eq, text_appendAll]
  cases hfull : fullValues values with
  | nil => rfl
  | cons first others =>
    have hmem : first ∈ fullValues values := by simp [hfull]
    obtain ⟨c, k, rfl⟩ : ∃ c k, first = c :: k := by
      refine List.exists_cons_of_ne_nil ?_
      rintro rfl
      exact Bool.false_ne_true (mem_of_mem_fullValues hmem).2.symm
    obtain ⟨rest, hrest⟩ := prefix_foldl [mark] (c :: k) others
    rw [List.foldl_cons, show joinClause [mark] [] (c :: k) = c :: k from rfl, ← hrest]
    rfl

theorem single_foldl (ht : Single mark t) {clauses : List Text}
    (h : ∀ v ∈ clauses, v.head? ≠ some mark ∧ Single mark v) :
    Single mark (clauses.foldl (joinClause [mark]) t) := by
  induction clauses generalizing t with
  | nil => exact ht
  | cons clause clauses ih =>
    obtain ⟨hstart, hclause⟩ := h clause (by simp)
    exact ih (single_joinClause ht hstart hclause) fun v hv => h v (by simp [hv])

theorem single_joined (h : ∀ v, some v ∈ values → v.head? ≠ some mark ∧ Single mark v) :
    Single mark (joined mark values) := by
  rw [joined_eq, text_appendAll]
  exact single_foldl .nil fun v hv => h v (mem_of_mem_fullValues hv).1

/-! ## The history -/

theorem appendValue_ofText? (j : Joiner) (value : Option Text) :
    appendValue (some j.delimiter) j.text (Value.ofText? value) = .ok (j.append value).text := by
  cases value with
  | none => rfl
  | some clause =>
    by_cases hblank : Text.isBlank clause = true
    · simp [Value.ofText?, appendValue, append, hblank]
    · by_cases hempty : j.text.isEmpty = true
      · have hnil : j.text = [] := List.isEmpty_iff.1 hempty
        simp [Value.ofText?, appendValue, append, hblank, hnil, joinClause]
      · simp [Value.ofText?, appendValue, append, hblank, hempty]

theorem history_ofText? (j : Joiner) (values : List (Option Text)) :
    history (some j.delimiter) j.text (values.map Value.ofText?) =
      .ok (values.inits.tail.map fun earlier => (j.appendAll earlier).text) := by
  induction values generalizing j with
  | nil => rfl
  | cons value values ih =>
    have hrest := ih (j.append value)
    rw [delimiter_append] at hrest
    rw [List.map_cons, history, appendValue_ofText?]
    simp only [hrest]
    cases values <;> simp [appendAll, Function.comp_def]

/-- A joiner neither loses, merges nor reorders what it is given. -/
theorem gathers_values (mark : Char) (values : List (Option Text)) : Gathers mark values where
  history := by
    have htexts : joined mark = fun earlier => (appendAll ⟨[mark], []⟩ earlier).text :=
      funext (joined_eq mark)
    rw [htexts]
    exact history_ofText? ⟨[mark], []⟩ values
  segments := by
    rw [joined_eq, fullSegments_appendAll rfl]
    rfl
  grows := by
    rintro earlier value later -
    rw [joined_append, joined_eq]
    exact prefix_append _ value
  unchanged := by
    rintro earlier value later - hblank
    rw [joined_append, append_of_isBlank? hblank, joined_eq]
  starts := by
    intro hstart
    rw [head?_joined] at hstart
    exact Option.bind_eq_some_iff.1 hstart
  doubled := by
    intro hdoubled
    by_contra hnone
    push Not at hnone
    exact single_iff.1 (single_joined fun v hv => ⟨(hnone v hv).1, single_iff.2 (hnone v hv).2⟩)
      hdoubled

/-- A value that starts with the mark doubles it. -/
example : joined ';' [some ";a;".toList, some " ".toList, none, some "b".toList, some ";".toList] =
    ";a;b;;".toList := by
  decide

end Joiner
end Gatekeeper.Screening
