import Gatekeeper.Value

/-!
# Rejections

What a reader is told about a class that it may not restore. A rejection is rebuilt from its
subject and its message.
-/

namespace Gatekeeper

structure Rejection where
  subject : Value
  message : Text

namespace Rejection

/-- A rejection without a message of its own gets the standard one. -/
def of (subject message : Value) : Rejection where
  subject := subject
  message := if message.isTruthy then message.display
    else "Serialization filter rejected class ".toList ++ subject.display

/-- What is kept of a rejection to build it again. -/
def parts (r : Rejection) : Value × Text := (r.subject, r.message)

def rebuild (kept : Value × Text) : Rejection := of kept.1 (.text kept.2)

end Rejection
end Gatekeeper
