import Gatekeeper.Text.Blank

/-!
# Lines

Text that was read has one kind of line end. Class lists also end a line at every other boundary
character; what reaches the program on its standard input ends a line at the line feed only.
-/

namespace Gatekeeper.Text

/-- Turns each carriage return, alone or before a line feed, into one line feed. -/
def normalizeNewlines : Text → Text
  | '\r' :: '\n' :: rest => '\n' :: normalizeNewlines rest
  | c :: rest => (if c = '\r' then '\n' else c) :: normalizeNewlines rest
  | [] => []

def isLineFeed (c : Char) : Bool := c = '\n'

/-- The boundary characters: line feed to form feed, file to record separator, next line, and the
line and paragraph separators. -/
def isLineBoundary (c : Char) : Bool :=
  let n := c.toNat
  (0x0A ≤ n && n ≤ 0x0D) || (0x1C ≤ n && n ≤ 0x1E) || n = 0x85 || n = 0x2028 || n = 0x2029

/-- The lines without their ends. A text that stops at a line end has no further line. -/
def linesBy (ends : Char → Bool) : Text → List Text
  | [] => []
  | c :: rest => if ends c then [] :: linesBy ends rest else consHead c (linesBy ends rest)

end Gatekeeper.Text
