import Gatekeeper.Proofs.Screening.Segments
import Mathlib.Data.List.Forall2
import Mathlib.Tactic.ByContra

/-!
# The pattern of sanctioned classes

Clauses are appended to the standing dependencies, and the pattern is asked for now and then. Main
statement: each time it holds the dependencies, then what was appended so far, then the clause that
rejects the rest (`closes_answers`). So it decides every class that has a name, and nothing
that is appended takes an accepted dependency back.
-/

namespace Gatekeeper.Screening

open Text (fullSegments)

variable {appended : List (Option Text)} {name : Text}

/-- The segments that appended clauses bring, in order. -/
def appendedTexts (appended : List (Option Text)) : List Text :=
  appended.flatMap (clauseSegments ';')

def dependencyClauses : List Clause := dependencies.filterMap Clause.read?

def appendedClauses (appended : List (Option Text)) : List Clause :=
  (appendedTexts appended).filterMap Clause.read?

/-- A dependency is allowed, else the first appended clause that matches decides, and the rest is
rejected. -/
def sanctionedVerdict (appended : List (Option Text)) (name : Text) : Verdict :=
  if dependencyClauses.any fun c => c.isMatch name then .allowed
  else (((appendedClauses appended).find? fun c => c.isMatch name).map Clause.verdict).getD .rejected

/-- Whether a text is the pattern that the appended clauses make, and decides as it should. -/
structure Closes (appended : List (Option Text)) (source : Text) : Prop where
  clauseTexts : clauseTexts source = dependencies ++ appendedTexts appended ++ [rejectAll]
  malformed : (∃ t, Pattern.read source = .error (.malformedClause t)) ↔
    ∃ s ∈ appendedTexts appended, ∃ t, Pattern.read s = .error (.malformedClause t)
  decides : (¬ ∃ s ∈ appendedTexts appended, ∃ t, Pattern.read s = .error (.malformedClause t)) →
    ∃ p, Pattern.read source = .ok p ∧ ∀ (c : Candidate) (name : Text), c.elementName = some name →
      p.verdict c = sanctionedVerdict appended name ∧ p.verdict c ≠ .undecided ∧
        (sanctionedVerdict [] name = .allowed → p.verdict c = .allowed)

namespace AcceptPattern

inductive Call
  | append (clause : Option Text)
  | ask

/-- The answers to the calls that ask for the pattern. -/
def answers (p : AcceptPattern) : List Call → List Text
  | [] => []
  | .append clause :: calls => (p.append clause).answers calls
  | .ask :: calls => p.text :: p.answers calls

/-- What was appended before each call that asks for the pattern. -/
def appendedBefore (appended : List (Option Text)) : List Call → List (List (Option Text))
  | [] => []
  | .append clause :: calls => appendedBefore (appended ++ [clause]) calls
  | .ask :: calls => appended :: appendedBefore appended calls

end AcceptPattern

/-! ## The segments of the pattern -/

/-- Each dependency is one segment, and reads as a clause that allows. -/
theorem reads_of_mem_dependencies : ∀ d ∈ dependencies,
    ';' ∉ d ∧ Text.isBlank d = false ∧ (Clause.read? d).map Clause.rejects = some false := by
  decide +kernel

theorem clauseTexts_dependencies : clauseTexts (Text.joined [';'] dependencies) = dependencies := by
  have hne : dependencies ≠ [] := List.cons_ne_nil _ _
  have hmark : ∀ d ∈ dependencies, ';' ∉ d := fun d hd => (reads_of_mem_dependencies d hd).1
  rw [clauseTexts_eq_fullSegments, fullSegments, Text.segments_joined hne hmark]
  apply List.filter_eq_self.2
  intro d hd
  simp [(reads_of_mem_dependencies d hd).2.1]

theorem joiner_foldl_append (p : AcceptPattern) (clauses : List (Option Text)) :
    (clauses.foldl AcceptPattern.append p).joiner = p.joiner.appendAll clauses := by
  induction clauses generalizing p with
  | nil => rfl
  | cons clause clauses ih => exact ih (p.append clause)

theorem clauseTexts_ofClauses (appended : List (Option Text)) :
    clauseTexts (AcceptPattern.ofClauses appended) =
      dependencies ++ appendedTexts appended ++ [rejectAll] := by
  have hinitial : AcceptPattern.initial.joiner.delimiter = [';'] := Joiner.delimiter_append _ _
  have hseed : fullSegments ';' AcceptPattern.initial.joiner.text = dependencies :=
    (Joiner.fullSegments_start ';' _).trans clauseTexts_dependencies
  have hbody : fullSegments ';' (appended.foldl AcceptPattern.append .initial).joiner.text =
      dependencies ++ appendedTexts appended := by
    rw [joiner_foldl_append, Joiner.fullSegments_appendAll hinitial, hseed, appendedTexts]
  have hclosing : fullSegments ';' rejectAll = [rejectAll] := by decide +kernel
  rw [clauseTexts_eq_fullSegments, AcceptPattern.ofClauses, AcceptPattern.text,
    Joiner.fullSegments_append (Joiner.delimiter_append _ _), Joiner.fullSegments_start]
  simp only [clauseSegments, Option.map_some, Option.getD_some, hbody, hclosing]

/-! ## Reading the pattern -/

theorem read?_rejectAll : Clause.read? rejectAll = some ⟨true, [], .one⟩ := by decide +kernel

theorem verdict_of_mem_dependencyClauses {c : Clause} (h : c ∈ dependencyClauses) :
    c.verdict = .allowed := by
  obtain ⟨d, hd, hread⟩ := List.mem_filterMap.1 h
  have hrejects := (reads_of_mem_dependencies d hd).2.2
  simp_all [Clause.verdict]

theorem Clause.verdict_ne_undecided (c : Clause) : c.verdict ≠ .undecided := by
  unfold verdict
  split <;> simp

theorem read_appendedText_iff {s : Text} (h : s ∈ appendedTexts appended) :
    (∃ t, Pattern.read s = .error (.malformedClause t)) ↔ Clause.read? s = none := by
  obtain ⟨clause, _, hs⟩ := List.mem_flatMap.1 h
  have hself : clauseTexts s = [s] := by
    cases clause with
    | none => simp [clauseSegments] at hs
    | some t => exact Text.fullSegments_of_mem hs
  rw [Pattern.read_eq_malformed_iff, hself]
  simp

theorem malformed_ofClauses_iff :
    (∃ t, Pattern.read (AcceptPattern.ofClauses appended) = .error (.malformedClause t)) ↔
      ∃ s ∈ appendedTexts appended, ∃ t, Pattern.read s = .error (.malformedClause t) := by
  rw [Pattern.read_eq_malformed_iff, clauseTexts_ofClauses]
  constructor
  · rintro ⟨t, ht, hnone⟩
    rcases List.mem_append.1 ht with ht | hclosing
    · rcases List.mem_append.1 ht with hdependency | happended
      · have hread := (reads_of_mem_dependencies t hdependency).2.2
        simp [hnone] at hread
      · exact ⟨t, happended, (read_appendedText_iff happended).2 hnone⟩
    · rw [List.mem_singleton.1 hclosing, read?_rejectAll] at hnone
      simp at hnone
  · rintro ⟨s, hs, hmalformed⟩
    exact ⟨s, by simp [hs], (read_appendedText_iff hs).1 hmalformed⟩

/-! ## Verdicts -/

theorem verdictOf_ofClauses {p : Pattern}
    (h : Pattern.read (AcceptPattern.ofClauses appended) = .ok p) (name : Text) :
    p.verdictOf name = sanctionedVerdict appended name := by
  have hclauses : p.clauses =
      dependencyClauses ++ (appendedClauses appended ++ [⟨true, [], .one⟩]) := by
    rw [Pattern.clauses_of_read h, clauseTexts_ofClauses]
    simp [dependencyClauses, appendedClauses, List.filterMap_append, read?_rejectAll]
  have hclosing : (⟨true, [], .one⟩ : Clause).isMatch name = true := by
    simp [Clause.isMatch, endsInDot]
  rw [Pattern.verdictOf, hclauses, List.find?_append, List.find?_append, sanctionedVerdict]
  cases hseed : dependencyClauses.find? fun c => c.isMatch name with
  | some c =>
    have hmem : c ∈ dependencyClauses := List.mem_of_find?_eq_some hseed
    have hmatch := List.find?_some hseed
    have hany : dependencyClauses.any (fun c => c.isMatch name) = true :=
      List.any_eq_true.2 ⟨c, hmem, hmatch⟩
    simp [hany, verdict_of_mem_dependencyClauses hmem]
  | none =>
    have hany : dependencyClauses.any (fun c => c.isMatch name) = false := by
      rw [List.any_eq_false]
      exact List.find?_eq_none.1 hseed
    cases hfind : (appendedClauses appended).find? fun c => c.isMatch name with
    | some c => simp [hany]
    | none => simp [hany, hclosing, Clause.verdict]

theorem sanctionedVerdict_ne_undecided (appended : List (Option Text)) (name : Text) :
    sanctionedVerdict appended name ≠ .undecided := by
  unfold sanctionedVerdict
  split
  · simp
  · cases (appendedClauses appended).find? fun c => c.isMatch name with
    | none => simp
    | some c => exact c.verdict_ne_undecided

/-- What the dependencies allow stays allowed, whatever is appended. -/
theorem sanctionedVerdict_eq_allowed (h : sanctionedVerdict [] name = .allowed)
    (appended : List (Option Text)) : sanctionedVerdict appended name = .allowed := by
  have hseed : dependencyClauses.any (fun c => c.isMatch name) = true := by
    by_contra hnone
    simp [sanctionedVerdict, hnone, appendedClauses, appendedTexts] at h
  simp [sanctionedVerdict, hseed]

theorem closes_ofClauses (appended : List (Option Text)) :
    Closes appended (AcceptPattern.ofClauses appended) where
  clauseTexts := clauseTexts_ofClauses appended
  malformed := malformed_ofClauses_iff
  decides := by
    intro hwell
    rw [← malformed_ofClauses_iff] at hwell
    obtain ⟨p, hp⟩ : ∃ p, Pattern.read (AcceptPattern.ofClauses appended) = .ok p := by
      rw [Pattern.read_eq] at hwell ⊢
      split
      · simp_all
      · exact ⟨_, rfl⟩
    refine ⟨p, hp, fun c name hname => ?_⟩
    have hverdict : p.verdict c = sanctionedVerdict appended name := by
      simp [Pattern.verdict, hname, verdictOf_ofClauses hp]
    rw [hverdict]
    exact ⟨rfl, sanctionedVerdict_ne_undecided appended name,
      fun h => sanctionedVerdict_eq_allowed h appended⟩

theorem closes_answersFrom (appended : List (Option Text))
    (calls : List AcceptPattern.Call) :
    List.Forall₂ Closes (AcceptPattern.appendedBefore appended calls)
      ((appended.foldl AcceptPattern.append .initial).answers calls) := by
  induction calls generalizing appended with
  | nil => exact .nil
  | cons call calls ih =>
    cases call with
    | append clause =>
      have hstep := ih (appended ++ [clause])
      rw [List.foldl_append] at hstep
      exact hstep
    | ask => exact .cons (closes_ofClauses appended) (ih appended)

/-- However appending and asking alternate, each answer is the closed pattern of what was appended
before it. -/
theorem closes_answers (calls : List AcceptPattern.Call) :
    List.Forall₂ Closes (AcceptPattern.appendedBefore [] calls)
      (AcceptPattern.initial.answers calls) :=
  closes_answersFrom [] calls

end Gatekeeper.Screening
