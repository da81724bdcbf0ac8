import Gatekeeper.Screening.Candidate

/-!
# Clauses

One rule about class names: a stem and up to two stars.

    pkg.Name    that class only
    pkg.*       the classes of the module pkg
    pkg.**      the classes of pkg and of all modules below it
    lead*       every name that starts with lead
    *           every name

A mark of exclamation in front makes a rule reject what it matches. Two stars stand only after a
dot, and no clause holds whitespace, a slash or an equals sign.
-/

namespace Gatekeeper.Screening

inductive Verdict
  | undecided
  | allowed
  | rejected
  deriving DecidableEq

namespace Verdict

def name : Verdict → Text
  | .undecided => "UNDECIDED".toList
  | .allowed => "ALLOWED".toList
  | .rejected => "REJECTED".toList

def ofName? (t : Text) : Option Verdict :=
  [undecided, allowed, rejected].find? fun v => v.name = t

end Verdict

inductive Stars
  | none
  | one
  | two
  deriving DecidableEq

def Stars.text : Stars → Text
  | .none => []
  | .one => ['*']
  | .two => ['*', '*']

structure Clause where
  rejects : Bool
  stem : Text
  stars : Stars
  deriving DecidableEq

def isStar (c : Char) : Bool := c = '*'

/-- Characters that may not stand anywhere in a clause. -/
def isForbidden (c : Char) : Bool := Text.isSpace c || c = '/' || c = '='

def endsInDot (t : Text) : Bool := t.getLast? = some '.'

namespace Clause

def text (c : Clause) : Text := (if c.rejects then ['!'] else []) ++ c.stem ++ c.stars.text

/-- The rule that a name with its stars at the end gives. -/
def ofName? (rejects : Bool) (name : Text) : Option Clause :=
  let stars := (name.reverse.takeWhile isStar).length
  let stem := (name.reverse.dropWhile isStar).reverse
  if stem.any fun c => isStar c || c = '!' then none
  else if stars = 0 then if stem.isEmpty then none else some ⟨rejects, stem, .none⟩
  else if stars = 1 then some ⟨rejects, stem, .one⟩
  else if stars = 2 && endsInDot stem then some ⟨rejects, stem, .two⟩
  else none

/-- Reads a clause; `none` for a malformed one. -/
def read? (t : Text) : Option Clause :=
  if t.any isForbidden then none
  else
    match t with
    | '!' :: name => ofName? true name
    | name => ofName? false name

/-- After a stem that ends in a dot one star stands for a name without a dot; two stars, and one
after any other stem, stand for any text. -/
def isMatch (c : Clause) (name : Text) : Bool :=
  match c.stars with
  | .none => name = c.stem
  | .one =>
    c.stem.isPrefixOf name && (!endsInDot c.stem || !(name.drop c.stem.length).contains '.')
  | .two => c.stem.isPrefixOf name

def verdict (c : Clause) : Verdict := if c.rejects then .rejected else .allowed

end Clause
end Gatekeeper.Screening
