import Gatekeeper.Notice
import Gatekeeper.Screening.NameSet
import Gatekeeper.Screening.Pattern

/-!
# Screens

A screen decides about candidates. One made from a pattern decides by its clauses, one of sanctioned
names allows those names outright and asks another screen about all others, and a program may bring
a rule of its own. A sanctioning screen reports each rejection and hands it on.
-/

namespace Gatekeeper.Screening

/-- How a program decides about candidates by itself, and what it reports while it does. -/
structure Rule where
  verdict : Candidate → Verdict
  notices : Candidate → List Notice
  description : Text

inductive Screen
  | pattern (p : Pattern)
  | constant (v : Verdict)
  | custom (rule : Rule)
  | sanctioning (names : NameSet) (inner : Screen)

namespace Screen

def ofPattern (source : Text) : Except Fault Screen :=
  match Pattern.read source with
  | .ok p => .ok (.pattern p)
  | .error fault => .error fault

/-- The screen of a pattern that is not asked about sanctioned names. -/
def ofPatternBeyond (names : NameSet) (source : Text) : Except Fault Screen :=
  match ofPattern source with
  | .ok screen => .ok (.sanctioning names screen)
  | .error fault => .error fault

/-- Whether a set of names settles a candidate by itself. -/
def settles (names : NameSet) (c : Candidate) : Bool := c.elementName.any names.contains

def verdict : Screen → Candidate → Verdict
  | .pattern p, c => p.verdict c
  | .constant v, _ => v
  | .custom rule, c => rule.verdict c
  | .sanctioning names inner, c => if settles names c then .allowed else inner.verdict c

/-- What a screen reports while it decides: what a rule within reports, and then one notice for each
sanctioning layer, from the inside out, that hands on a rejection. -/
def notices : Screen → Candidate → List Notice
  | .pattern _, _ => []
  | .constant _, _ => []
  | .custom rule, c => rule.notices c
  | .sanctioning names inner, c =>
    if settles names c then []
    else
      inner.notices c ++
        if inner.verdict c = .rejected then [.classRejected c.elementName] else []

/-- The element names that a sanctioning layer asks the screen within about. -/
def consulted (names : NameSet) (candidates : List Candidate) : List (Option Text) :=
  (candidates.filter fun c => !settles names c).map Candidate.elementName

def describe : Screen → Text
  | .pattern p => "PatternFilter(".toList ++ Text.quoted p.source ++ [')']
  | .constant v => "FixedFilter(".toList ++ v.name ++ [')']
  | .custom rule => rule.description
  | .sanctioning names inner =>
    "SanctionedClassesFilter(".toList ++ inner.describe ++ ", ".toList ++ Text.ofNat names.size ++
      " sanctioned classes)".toList

/-- A sanctioning screen needs both a screen to ask and a set of names. -/
def guarded (inner : Option Screen) (names : Option (List Text)) : Except Fault Screen :=
  match inner, names with
  | none, _ => .error (.required .delegate)
  | some _, none => .error (.required .sanctionedClasses)
  | some inner, some names => .ok (.sanctioning (.ofList names) inner)

end Screen

/-- What a screen is made from, as it is written down. -/
inductive Blueprint
  | pattern (source : Option Text)
  | constant (verdict : Text)
  | custom (rule : Rule)
  | guarded (inner : Option Blueprint) (names : Option (List Text))

/-- Builds the screen that a blueprint describes, the inner one first. -/
def Blueprint.build : Blueprint → Except Fault Screen
  | .pattern none => .error (.required .pattern)
  | .pattern (some source) => Screen.ofPattern source
  | .constant name =>
    match Verdict.ofName? name with
    | some v => .ok (.constant v)
    | none => .error .unknownName
  | .custom rule => .ok (.custom rule)
  | .guarded none names => Screen.guarded none names
  | .guarded (some inner) names =>
    match inner.build with
    | .ok screen => Screen.guarded (some screen) names
    | .error fault => .error fault

/-- Nothing is built where no blueprint is given. -/
def Blueprint.build? : Option Blueprint → Except Fault (Option Screen)
  | none => .ok none
  | some b =>
    match b.build with
    | .ok screen => .ok (some screen)
    | .error fault => .error fault

end Gatekeeper.Screening
