import Gatekeeper.Fault
import Gatekeeper.Screening.Clause

/-!
# Patterns

A pattern is a text of clauses with semicolons between them; blank segments count for nothing. The
first clause that matches a class decides about it, and a class that none matches is undecided.
-/

namespace Gatekeeper.Screening

/-- The segments of a pattern that hold a clause. -/
def clauseTexts (source : Text) : List Text :=
  (Text.segments ';' source).filter fun segment => !Text.isBlank segment

def readClause (t : Text) : Except Fault Clause :=
  match Clause.read? t with
  | some c => .ok c
  | none => .error (.malformedClause t)

/-- Reads clauses up to the first malformed one, which is the fault. -/
def readClauses : List Text → Except Fault (List Clause)
  | [] => .ok []
  | t :: rest =>
    match readClause t with
    | .error fault => .error fault
    | .ok c =>
      match readClauses rest with
      | .error fault => .error fault
      | .ok clauses => .ok (c :: clauses)

structure Pattern where
  source : Text
  clauses : List Clause
  deriving DecidableEq

namespace Pattern

def read (source : Text) : Except Fault Pattern :=
  match readClauses (clauseTexts source) with
  | .error fault => .error fault
  | .ok clauses => .ok ⟨source, clauses⟩

/-- The first clause that matches decides. -/
def verdictOf (p : Pattern) (name : Text) : Verdict :=
  ((p.clauses.find? fun c => c.isMatch name).map Clause.verdict).getD .undecided

/-- A candidate without a name is undecided. -/
def verdict (p : Pattern) (c : Candidate) : Verdict :=
  (c.elementName.map p.verdictOf).getD .undecided

end Pattern
end Gatekeeper.Screening
