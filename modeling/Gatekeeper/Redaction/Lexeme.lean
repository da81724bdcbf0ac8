import Gatekeeper.Redaction.Pair

/-!
# The four parts of a pair

Each part can be read on its own, from any position of a text.
-/

namespace Gatekeeper.Redaction

inductive Lexeme
  | marker
  | option
  | assignment
  | argument
  deriving DecidableEq

namespace Lexeme

/-- The place of the part in a pair, counted from one. -/
def index : Lexeme → Nat
  | .marker => 1
  | .option => 2
  | .assignment => 3
  | .argument => 4

def ofName? (name : Text) : Option Lexeme :=
  if name = "PREFIX".toList then some .marker
  else if name = "OPTION".toList then some .option
  else if name = "ASSIGNMENT".toList then some .assignment
  else if name = "ARGUMENT".toList then some .argument
  else none

/-- The part at the start of a text, and what follows it. -/
def read? (l : Lexeme) (t : Text) : Option (Text × Text) :=
  match l with
  | .marker => (Marker.read? t).map fun (m, rest) => (m.text, rest)
  | .option => readOption? t
  | .assignment => readAssignment? t
  | .argument => readArgument? t

/-- The part at a position; a position behind the end counts as the end. -/
def readAt? (l : Lexeme) (t : Text) (position : Nat) : Option Text :=
  (l.read? (t.drop position)).map Prod.fst

def isWhole (l : Lexeme) (t : Text) : Bool := l.read? t = some (t, [])

end Lexeme
end Gatekeeper.Redaction
