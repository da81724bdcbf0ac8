import Gatekeeper.Contributor.Package

/-!
# Resources

A resource is a text that lies in the folder of a package, or in a folder that can be reached from
there. It is named by its way from the folder: names of folders and a last name, with slashes
between them.

Main statement: the library finds its own class list (`read_own`).
-/

namespace Gatekeeper.Resource

open Package (Path)

/-- The classes of the library itself that members exchange. -/
def ownClassList : Text :=
  Text.joined ['\n']
    ["# One class per line; anything after the first comma is ignored.".toList,
     "pyguard.error.GuardError".toList, "pyguard.error.UnsupportedFilterError".toList,
     "pyguard.error.FilterAlreadySetError".toList,
     "pyguard.error.FilterConfigurationError".toList,
     "pyguard.error.MalformedPatternError".toList, "pyguard.error.InvalidClassError".toList,
     "pyguard.filter.api.Status".toList, "pyguard.filter.api.FilterInfo".toList,
     "pyguard.filter.state.FilterState".toList]

def ownPackage : Text := "pyguard.filter".toList

def ownName : Text := "sanctioned-pyguard-serializables.txt".toList

inductive Place
  | folder (path : Path)
  | file (content : Text)
  deriving DecidableEq

def place? (path : Path) : Option Place :=
  if Package.folders.contains path then some (.folder path)
  else if path = Package.pathOf ownPackage ++ [ownName] then some (.file ownClassList)
  else none

/-- The most bytes that a name in a folder can have. -/
def nameLimit : Nat := 255

/-- Goes on to a name in a folder, or to the folder above it. -/
def step (name : Text) : Place → Except SystemFailure Place
  | .file _ => .error .notFolder
  | .folder path =>
    if name = ['.', '.'] then .ok (.folder path.dropLast)
    else if nameLimit < (String.ofList name).utf8ByteSize then .error .general
    else
      match place? (path ++ [name]) with
      | some place => .ok place
      | none => .error .notFound

def walk (place : Place) : List Text → Except SystemFailure Place
  | [] => .ok place
  | name :: rest =>
    match step name place with
    | .ok next => walk next rest
    | .error reason => .error reason

def stepsOf (way : Text) : List Text :=
  (Text.segments '/' way).filter fun name => !(name.isEmpty || name = ['.'])

def Place.read : Place → Except SystemFailure Text
  | .folder _ => .error .isFolder
  | .file content => .ok content

/-- The text at the end of a way. A way that starts with a slash starts above all packages, where
there are no resources. -/
def follow (folder : Path) (way : Text) : Except SystemFailure Text :=
  if ['/'].isPrefixOf way then .error (if (stepsOf way).isEmpty then .isFolder else .notFound)
  else
    match walk (.folder folder) (stepsOf way) with
    | .ok place => place.read
    | .error reason => .error reason

def read (package way : Text) : Except ReadFailure Text :=
  match Package.folder package with
  | .error reason => .error reason
  | .ok folder =>
    if way.contains '\x00' then .error .invalidValue
    else
      match follow folder way with
      | .ok content => .ok content
      | .error reason => .error (.system reason)

theorem follow_of_step {path : Path} {name content : Text}
    (hstart : ['/'].isPrefixOf name = false) (hsteps : stepsOf name = [name])
    (hstep : step name (.folder path) = .ok (.file content)) : follow path name = .ok content := by
  simp [follow, hstart, hsteps, walk, hstep, Place.read]

theorem read_of_follow {package way content : Text}
    (hfolder : Package.pathOf package ∈ Package.folders) (hway : '\x00' ∉ way)
    (hfollow : follow (Package.pathOf package) way = .ok content) :
    read package way = .ok content := by
  delta read
  simp [Package.folder_eq hfolder, hway, hfollow]

theorem step_of_place {path : Path} {name : Text} {place : Place} (hup : name ≠ ['.', '.'])
    (hlimit : (String.ofList name).utf8ByteSize ≤ nameLimit)
    (hplace : place? (path ++ [name]) = some place) : step name (.folder path) = .ok place := by
  simp [step, hup, Nat.not_lt.2 hlimit, hplace]

theorem place?_file {path : Path} (hfolder : path ∉ Package.folders)
    (hpath : path = Package.pathOf ownPackage ++ [ownName]) :
    place? path = some (.file ownClassList) :=
  (if_neg (mt List.contains_iff_mem.1 hfolder)).trans (if_pos hpath)

theorem step_own :
    step ownName (.folder (Package.pathOf ownPackage)) = .ok (.file ownClassList) := by
  have hfolder : Package.pathOf ownPackage ++ [ownName] ∉ Package.folders :=
    Package.not_mem_folders (List.mem_append_right _ (List.mem_singleton_self _)) (by decide)
  exact step_of_place (by decide) (by decide +kernel) (place?_file hfolder rfl)

theorem read_own : read ownPackage ownName = .ok ownClassList :=
  read_of_follow (Package.pathOf_mem_folders (by decide +kernel)) (by decide)
    (follow_of_step (by decide) (by decide +kernel) step_own)

end Gatekeeper.Resource
