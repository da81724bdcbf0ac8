import Gatekeeper.Logging.Template
import Gatekeeper.Redaction.Redactor

/-!
# Records

A record is what a log call hands on. A filter renders it, redacts the outcome and drops the
arguments, so that whoever gets the record later never sees the unredacted values.
-/

namespace Gatekeeper.Logging

open Redaction (Redactor)

structure Record where
  message : Value
  arguments : List Value

namespace Record

def ofText (t : Text) : Record := ⟨.text t, []⟩

/-- The text of a record. Without arguments the message is no template. -/
def text (r : Record) : Except TemplateFault Text :=
  if r.arguments.isEmpty then .ok r.message.display else fill r.message.display r.arguments

/-- The text to redact: the template itself where the arguments do not fit it or where a form is
malformed. A key that the arguments lack is a fault, and so is an amount beyond its limits. -/
def textToRedact (r : Record) : Except TemplateFault Text :=
  match r.text with
  | .ok t => .ok t
  | .error .argumentMismatch | .error .malformedForm => .ok r.message.display
  | .error fault => .error fault

def redacted (redactor : Redactor) (r : Record) : Except TemplateFault Record :=
  match r.textToRedact with
  | .ok t => .ok (.ofText (redactor.redact t))
  | .error fault => .error fault

def redactedAll : List Redactor → Record → Except TemplateFault Record
  | [], r => .ok r
  | redactor :: rest, r =>
    match r.redacted redactor with
    | .ok r => redactedAll rest r
    | .error fault => .error fault

end Record
end Gatekeeper.Logging
