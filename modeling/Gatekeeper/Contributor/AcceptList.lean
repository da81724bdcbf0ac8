import Gatekeeper.Contributor.Resource
import Gatekeeper.Text.Lines

/-!
# Accept lists

A class list holds one class name on each line; what follows the first comma of a line is a remark.
Blank lines and lines that start with `#` or `//` are comments. A name may be written with slashes
for dots.
-/

namespace Gatekeeper.AcceptList

def dotted (c : Char) : Char := if c = '/' then '.' else c

def isComment (line : Text) : Bool := ['#'].isPrefixOf line || ['/', '/'].isPrefixOf line

def nameOfLine? (line : Text) : Option Text :=
  let line := Text.trim line
  if line.isEmpty || isComment line then none
  else
    let name := Text.trim (Text.cutAt ',' line).1
    if name.isEmpty then none else some (name.map dotted)

def classNames (list : Text) : List Text :=
  (Text.linesBy Text.isLineBoundary (Text.normalizeNewlines list)).filterMap nameOfLine?

/-- Text from bytes, which must be well-formed UTF-8. A byte order mark is kept. -/
def decode (bytes : List UInt8) : Except ReadFailure Text :=
  match String.fromUTF8? ⟨bytes.toArray⟩ with
  | some s => .ok s.toList
  | none => .error .notUnicode

inductive Source
  | names (list : List Text)
  | text (list : Text)
  | bytes (content : List UInt8)
  | resource (package way : Text)
  | failing (reason : ReadFailure)

def Source.read : Source → Except ReadFailure (List Text)
  | .names list => .ok list
  | .text list => .ok (classNames list)
  | .bytes content => (decode content).map classNames
  | .resource package way => (Resource.read package way).map classNames
  | .failing reason => .error reason

theorem Source.read_resource {package way content : Text}
    (h : Resource.read package way = .ok content) :
    (Source.resource package way).read = .ok (classNames content) := by
  rw [Source.read, h]
  rfl

end Gatekeeper.AcceptList
