import Gatekeeper.Text.Blank

/-!
# Candidates

What a stream asks to restore: a class, or an array of a class. A class is decided by its element
name, from which every array mark at the end has been taken off.

Main statement: an array mark at the end of a name does not change its element
(`element_append_mark`).
-/

namespace Gatekeeper.Screening

/-- A class, known by its dotted name or by its module and its name there. -/
inductive ClassRef
  | named (name : Text)
  | member (module qualifiedName : Text)
  deriving DecidableEq

def ClassRef.name : ClassRef → Text
  | .named name => name
  | .member module qualifiedName => module ++ '.' :: qualifiedName

def arrayMark : Text := ['[', ']']

/-- Takes array marks off a reversed name. -/
def dropMarks : Text → Text
  | ']' :: '[' :: rest => dropMarks rest
  | t => t

/-- A name without the array marks at its end. -/
def element (name : Text) : Text := (dropMarks name.reverse).reverse

theorem element_append_mark (name : Text) : element (name ++ arrayMark) = element name := by
  simp [element, arrayMark, dropMarks]

/-- `length` is negative where it is not known or makes no sense. -/
structure Candidate where
  subject : Option ClassRef := none
  component : Option ClassRef := none
  length : Int := -1

namespace Candidate

def ofName (name : Text) : Candidate := ⟨some (.named name), none, -1⟩

def className (c : Candidate) : Option Text := c.subject.map ClassRef.name

def isArray (c : Candidate) : Bool :=
  c.component.isSome || c.className.any fun name => arrayMark.isSuffixOf name

/-- The name that is decided: the component's if there is one, else the class's. -/
def elementName (c : Candidate) : Option Text :=
  ((c.component <|> c.subject).map ClassRef.name).map element

end Candidate
end Gatekeeper.Screening
