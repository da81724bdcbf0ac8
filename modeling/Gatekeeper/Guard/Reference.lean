import Gatekeeper.Fault

/-!
# References

A stream names a class by its module and its name there. Streams of the older protocols may use the
former names of some modules. From protocol 4 on a name is a path through the members of the module.
-/

namespace Gatekeeper.Guard

structure Reference where
  module : Text
  name : Text
  deriving DecidableEq

namespace Reference

/-- The name that screens are asked about. -/
def dotted (r : Reference) : Text := r.module ++ '.' :: r.name

def moved : List (Reference × Reference) :=
  [(⟨"__builtin__".toList, "xrange".toList⟩, ⟨"builtins".toList, "range".toList⟩)]

def renamedModules : List (Text × Text) :=
  [("__builtin__".toList, "builtins".toList), ("copy_reg".toList, "copyreg".toList)]

/-- The present name of what a former name stands for. -/
def current (r : Reference) : Reference :=
  match moved.lookup r with
  | some target => target
  | none => ⟨(renamedModules.lookup r.module).getD r.module, r.name⟩

end Reference

/-- The classes that exist: the module of each and its path there. -/
structure Catalog where
  members : List (Text × List Text)

structure Naming where
  protocol : Nat
  formerNames : Bool
  deriving DecidableEq

namespace Naming

def target (n : Naming) (r : Reference) : Reference :=
  if n.formerNames && n.protocol < 3 then r.current else r

def path (n : Naming) (name : Text) : List Text :=
  if 4 ≤ n.protocol then Text.segments '.' name else [name]

end Naming

namespace Catalog

def hasModule (c : Catalog) (module : Text) : Bool := c.members.any fun m => m.1 = module

/-- The class that a reference stands for, by its module and path. -/
def resolve (c : Catalog) (n : Naming) (r : Reference) : Except Fault Text :=
  let target := n.target r
  let path := n.path target.name
  if target.module.isEmpty then .error .emptyModuleName
  else if !c.hasModule target.module then .error .moduleNotFound
  else if c.members.contains (target.module, path) then
    .ok (target.module ++ '.' :: Text.joined ['.'] path)
  else .error .nameNotFound

end Catalog
end Gatekeeper.Guard
