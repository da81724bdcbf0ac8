import Gatekeeper.Contributor.AcceptList
import Gatekeeper.Notice
import Gatekeeper.Screening.NameSet

/-!
# Contributors

A contributor brings the names of classes that may always be restored. Their lists are merged into
one set. The first contributor whose list cannot be had ends the merge: a failure of the operating
system becomes a fault that names the contributor, any other failure is passed on.
-/

namespace Gatekeeper

open Screening (NameSet)

structure Contributor where
  name : Text
  acceptList : Except ReadFailure (List Text)

namespace Contributor

def core : Contributor where
  name := "CoreSanctionedSerializablesService".toList
  acceptList := (AcceptList.Source.resource Resource.ownPackage Resource.ownName).read

theorem acceptList_core : core.acceptList = .ok (AcceptList.classNames Resource.ownClassList) := by
  delta core
  dsimp only
  exact AcceptList.Source.read_resource Resource.read_own

def numpy : Contributor where
  name := "NumpySanctionedSerializablesService".toList
  acceptList := .ok
    ["numpy.ndarray".toList, "numpy.dtype".toList, "numpy.core.multiarray._reconstruct".toList,
     "numpy.core.multiarray.scalar".toList, "numpy._core.multiarray._reconstruct".toList,
     "numpy._core.multiarray.scalar".toList]

/-- The fault that an unreadable list of a contributor is reported as. -/
def readFault (contributor : Text) : ReadFailure → Fault
  | .system reason => .unreadableContributor contributor reason
  | reason => .acceptList reason

/-- The contributors that were asked for their lists, in order, and what came of it. -/
structure Inquiry where
  asked : List Contributor
  reported : Reported NameSet

/-- Asks each contributor in turn and adds its names, with one notice for each list that was read.
Nobody is asked behind the first one that has no list to give. -/
def inquire (names : NameSet) : List Contributor → Inquiry
  | [] => ⟨[], ([], .ok names)⟩
  | c :: rest =>
    match c.acceptList with
    | .error reason => ⟨[c], ([], .error (readFault c.name reason))⟩
    | .ok list =>
      let ⟨asked, notices, result⟩ := inquire (names.insertAll list) rest
      ⟨c :: asked, .namesSanctioned c.name list.length :: notices, result⟩

def merge (contributors : List Contributor) : Reported NameSet :=
  (inquire .empty contributors).reported

/-- Those that a merge does not come to. -/
def unasked (contributors : List Contributor) : List Contributor :=
  contributors.drop (inquire .empty contributors).asked.length

/-- Merging needs a list of contributors, if only an empty one. -/
def merge? : Option (List Contributor) → Reported NameSet
  | none => ([], .error (.required .services))
  | some contributors => merge contributors

/-- Where a configuration has its contributors from. Those that pass by are handed out one time
only: a merge takes them along as far as it comes. -/
inductive Supply
  | discovered
  | listed (contributors : List Contributor)
  | passing (contributors : List Contributor)

namespace Supply

/-- The contributors to be merged, where `found` are those that a discovery would find. -/
def contributors (found : Except Fault (List Contributor)) :
    Supply → Except Fault (List Contributor)
  | .discovered => found
  | .listed contributors => .ok contributors
  | .passing contributors => .ok contributors

/-- The supply behind a merge of its contributors. -/
def merged : Supply → Supply
  | .passing contributors => .passing (unasked contributors)
  | supply => supply

end Supply

end Contributor
end Gatekeeper
