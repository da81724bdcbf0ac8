import Gatekeeper.Contributor.Basic

/-!
# Discovery

Contributors are found through registered entries. The core contributor is always there, the one
for arrays when their library is, and each entry adds the contributor that it loads, unless its
class was seen before. The first entry that fails ends the discovery.
-/

namespace Gatekeeper.Contributor

inductive Key
  | core
  | numpy
  | registered (number : Nat)
  deriving DecidableEq

/-- A contributor's class; its construction may fail. -/
structure Family where
  key : Key
  instance? : Except LoadFailure Contributor

def coreFamily : Family := ⟨.core, .ok core⟩

def numpyFamily : Family := ⟨.numpy, .ok numpy⟩

structure Entry where
  name : Text
  family? : Except LoadFailure Family

/-- A discovery with the entries that it loaded and the classes that it constructed, in order. The
last of each may be one that failed. -/
structure Search where
  loaded : List Entry
  constructed : List Key
  found : Except Fault (List Contributor)

/-- Loads the entries and constructs the classes that are not among those seen. -/
def search (seen : List Key) : List Entry → Search
  | [] => ⟨[], [], .ok []⟩
  | entry :: rest =>
    match entry.family? with
    | .error reason => ⟨[entry], [], .error (.unloadableEntry entry.name reason)⟩
    | .ok family =>
      if family.key ∈ seen then
        let later := search seen rest
        ⟨entry :: later.loaded, later.constructed, later.found⟩
      else
        match family.instance? with
        | .error reason => ⟨[entry], [family.key], .error (.unloadableEntry entry.name reason)⟩
        | .ok contributor =>
          let later := search (family.key :: seen) rest
          ⟨entry :: later.loaded, family.key :: later.constructed,
            later.found.map (contributor :: ·)⟩

/-- The classes that are always constructed; `arrays` says whether the array library is there. -/
def builtIn (arrays : Bool) : List Key := if arrays then [.core, .numpy] else [.core]

def searchAll (arrays : Bool) (entries : List Entry) : Search :=
  let later := search (builtIn arrays) entries
  ⟨later.loaded, builtIn arrays ++ later.constructed,
    later.found.map ((if arrays then [core, numpy] else [core]) ++ ·)⟩

/-- Every contributor that is registered, the built-in ones first. -/
def discover (arrays : Bool) (entries : List Entry) : Except Fault (List Contributor) :=
  (searchAll arrays entries).found

def construct : List Family → Except Fault (List Contributor)
  | [] => .ok []
  | c :: rest =>
    match c.instance? with
    | .error _ => .error .contributorNotConstructible
    | .ok contributor =>
      match construct rest with
      | .error fault => .error fault
      | .ok contributors => .ok (contributor :: contributors)

end Gatekeeper.Contributor
