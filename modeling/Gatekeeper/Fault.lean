import Gatekeeper.Screening.Rejection

/-!
# Faults

Every way in which an operation can fail, as a cause. The wording of the faults that the library
words itself is in `Fault.message`; the others carry none.
-/

namespace Gatekeeper

/-- The operating system's reasons for which a file is not read. -/
inductive SystemFailure
  | general
  | notFound
  | permission
  | timeout
  | connectionReset
  | isFolder
  | notFolder
  deriving DecidableEq

/-- Why a contributor has no accept list to give. At an exit the program is told to end while it
asks. -/
inductive ReadFailure
  | system (reason : SystemFailure)
  | notUnicode
  | packageNotFound
  | notPackage
  | invalidValue
  | invalidState
  | missingKey
  | endOfInput
  | exit
  deriving DecidableEq

/-- Why a registered contributor cannot be had at all. -/
inductive LoadFailure
  | moduleNotFound
  | notConstructible
  deriving DecidableEq

inductive Required
  | pattern
  | delegate
  | sanctionedClasses
  | installedFilter
  | services
  deriving DecidableEq

inductive TemplateFault
  | argumentMismatch
  | malformedForm
  | missingKey
  | outOfRange
  | noRoom
  deriving DecidableEq

inductive Fault
  | malformedClause (clause : Text)
  | classRejected (name : Text)
  | alreadySet
  | unsupported
  | unreadableContributor (contributor : Text) (reason : SystemFailure)
  | unloadableEntry (entry : Text) (reason : LoadFailure)
  | required (what : Required)
  | readerWithoutScreen
  | acceptList (reason : ReadFailure)
  | exit
  | contributorNotConstructible
  | template (reason : TemplateFault)
  | notLines
  | clauseNotText
  | delimiterNotText
  | settingNotText
  | streamScreenAbsent
  | unknownName
  | enforcementFailed
  | hookArguments
  | endOfStream
  | stackTooSmall
  | moduleNotFound
  | nameNotFound
  | emptyModuleName
  deriving DecidableEq

namespace Required

def message : Required → Text
  | .pattern => "pattern must not be None".toList
  | .delegate => "delegate must not be None".toList
  | .sanctionedClasses => "sanctioned_classes must not be None".toList
  | .installedFilter => "object_filter must not be None".toList
  | .services => "services must not be None".toList

end Required

namespace Fault

/-- The program is told to end. What handles failures does not handle this. -/
def isExit : Fault → Bool
  | .exit | .acceptList .exit => true
  | _ => false

def message : Fault → Option Text
  | .malformedClause clause => some ("Malformed filter clause ".toList ++ Text.quoted clause)
  | .classRejected name => some (Rejection.of (.text name) .null).message
  | .alreadySet => some "Serial filter can only be set once".toList
  | .unsupported => some
      ("No deserialization guard is available: this interpreter supports neither ".toList ++
        "pickle.find_class audit hooks nor Unpickler.find_class overrides".toList)
  | .unreadableContributor contributor _ =>
      some ("Unable to load sanctioned serializables from ".toList ++ contributor)
  | .unloadableEntry entry _ =>
      some ("Unable to load sanctioned serializables contributor ".toList ++ entry)
  | .required what => some what.message
  | .readerWithoutScreen => some
      "Unpickler does not support per-stream filters, use FilteringUnpickler".toList
  | _ => none

end Fault
end Gatekeeper
