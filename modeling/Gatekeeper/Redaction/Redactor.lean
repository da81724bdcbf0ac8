import Gatekeeper.Notice
import Gatekeeper.Redaction.Scan
import Gatekeeper.Redaction.Dictionary

/-!
# Redaction

The argument of every sensitive option of a line gives way to a token. The line is rebuilt from its
pieces, so all other text stays, even where it equals a hidden argument.
-/

namespace Gatekeeper.Redaction

/-- Whether a pair has an argument that must be hidden. -/
def Pair.isHidden (sensitive : Text → Bool) (p : Pair) : Bool :=
  p.binding.isSome && sensitive p.option

def Pair.withArgument (argument : Text) (p : Pair) : Pair where
  marker := p.marker
  option := p.option
  binding := p.binding.map fun b => ⟨b.assignment, argument⟩

namespace Piece

def redacted (sensitive : Text → Bool) (token : Text) : Piece → Text
  | .pair p => if p.isHidden sensitive then (p.withArgument token).text else p.text
  | piece => piece.text

def hiddenOption? (sensitive : Text → Bool) : Piece → Option Text
  | .pair p => if p.isHidden sensitive then some p.option else none
  | _ => none

end Piece

/-- A line with the arguments of its sensitive options replaced by the token. -/
def redactLine (sensitive : Text → Bool) (token line : Text) : Text :=
  (scan line).flatMap (Piece.redacted sensitive token)

/-- The options whose arguments are replaced, in the order of the line. -/
def hiddenOptions (sensitive : Text → Bool) (line : Text) : List Text :=
  (scan line).filterMap (Piece.hiddenOption? sensitive)

/-- One notice for each argument that is replaced, in the order of the line. -/
def redactionNotices (sensitive : Text → Bool) (line : Text) : List Notice :=
  (hiddenOptions sensitive line).map .argumentRedacted

/-- How a line is redacted: by scanning it for pairs, or by a rule that the caller brings. -/
inductive Strategy
  | scanning
  | custom (rule : Text → Text)

structure Redactor where
  token : Text := "redacted".toList
  dictionary : Dictionary := .standard
  strategy : Strategy := .scanning

namespace Redactor

def redact (r : Redactor) (line : Text) : Text :=
  match r.strategy with
  | .scanning => redactLine r.dictionary.isSensitive r.token line
  | .custom rule => rule line

def notices (r : Redactor) (line : Text) : List Notice :=
  match r.strategy with
  | .scanning => redactionNotices r.dictionary.isSensitive line
  | .custom _ => []

/-- The line that a list of lines makes, with a blank between any two. -/
def oneLine (lines : List Text) : Text := Text.joined [' '] lines

inductive Subject
  | nothing
  | line (t : Text)
  | lines (ts : List Text)

/-- The line that a value stands for: a list holds texts only, and nothing else has lines. -/
def Subject.ofValue? : Value → Option Subject
  | .null => some .nothing
  | .text t => some (.line t)
  | .list items => (items.mapM Value.text?).map .lines
  | .record fields => some (.lines (fields.map Prod.fst))
  | _ => none

def Subject.line? : Subject → Option Text
  | .nothing => none
  | .line t => some t
  | .lines ts => some (oneLine ts)

def redactSubject (r : Redactor) (s : Subject) : Option Text := s.line?.map r.redact

def subjectNotices (r : Redactor) (s : Subject) : List Notice :=
  (s.line?.map r.notices).getD []

/-- The lines of a value, one by one: a text stands for its characters. -/
def linesOfValue? : Value → Option (List (Option Text))
  | .text t => some (t.map fun c => some [c])
  | .list items =>
    items.mapM fun item =>
      match item with
      | .null => some none
      | .text t => some (some t)
      | _ => none
  | .record fields => some (fields.map fun field => some field.1)
  | _ => none

/-- Each line on its own; what is absent stays absent. -/
def redactEach (r : Redactor) (lines : List (Option Text)) : List (Option Text) :=
  lines.map fun line => line.map r.redact

/-- The token in place of an argument whose option is sensitive. -/
def redactArgument (r : Redactor) (option argument : Option Text) : Option Text :=
  if r.dictionary.isSensitive? option then some r.token else argument

end Redactor
end Gatekeeper.Redaction
