import Gatekeeper.Logging.Record
import Gatekeeper.Table

/-!
# The tree of loggers

Loggers are named by dotted paths below the root, whose name is empty. A logger is made when it is
named for the first time. Its parent is the nearest logger above it that there is by then, and a
logger that is made later can come between the two. Records go from parent to parent, as long as the
loggers pass them on.

Handlers are told apart by their numbers. A handler may be on several loggers; its filters are its
own, wherever it was when they were installed.
-/

namespace Gatekeeper.Logging

open Redaction (Redactor)

structure Logger where
  parent : Text := []
  handlers : List Nat := []
  filters : List Redactor := []
  propagates : Bool := true

/-- A handler that is on the logger already is not added again. -/
def Logger.addHandler (id : Nat) (l : Logger) : Logger where
  parent := l.parent
  handlers := if l.handlers.contains id then l.handlers else l.handlers ++ [id]
  filters := l.filters
  propagates := l.propagates

def Logger.addFilter (redactor : Redactor) (l : Logger) : Logger where
  parent := l.parent
  handlers := l.handlers
  filters := l.filters ++ [redactor]
  propagates := l.propagates

/-! ## Names -/

/-- What stands in front of the dots of a name, longest first, for a name that is written backwards.
A dot right in front of one that counts is passed over, and so is a dot that starts the name. -/
def stemsOfReversed : Text → List Text
  | [] => []
  | [_] => []
  | c :: d :: rest =>
    if c = '.' then (d :: rest).reverse :: stemsOfReversed rest else stemsOfReversed (d :: rest)

/-- The names above a name, nearest first, without the root. -/
def namesAbove (name : Text) : List Text := stemsOfReversed name.reverse

/-- The name that a logger shows: its own, or a fixed one for the root. -/
def shownName (name : Text) : Text := if name.isEmpty then "root".toList else name

/-! ## Loggers in their places -/

/-- The loggers that were named so far, the root under the empty name, and the filters that were
installed on handlers, in order. -/
structure Tree where
  loggers : Table Logger
  installed : List (Nat × Redactor)

/-- The logger of a name takes a new one as its parent if that is among those above it, unless the
parent it has shows a name that begins with the new name. -/
def Logger.adopt (new name : Text) (l : Logger) : Logger :=
  if (namesAbove name).contains new && !new.isPrefixOf (shownName l.parent) then
    ⟨new, l.handlers, l.filters, l.propagates⟩
  else l

namespace Tree

def empty : Tree := ⟨.empty, []⟩

def get (tree : Tree) (name : Text) : Logger := (tree.loggers.get? name).getD {}

def filtersOf (tree : Tree) (id : Nat) : List Redactor :=
  (tree.installed.filter fun e => e.1 = id).map Prod.snd

def nearestAbove (tree : Tree) (name : Text) : Text :=
  ((namesAbove name).find? fun above => (tree.loggers.get? above).isSome).getD []

/-- Makes the logger of a name, unless there is one. The root is always there. -/
def add (tree : Tree) (name : Text) : Tree :=
  if name.isEmpty || (tree.loggers.get? name).isSome then tree
  else
    ⟨(tree.loggers.map fun other l => l.adopt name other).put name
      ⟨tree.nearestAbove name, [], [], true⟩, tree.installed⟩

def change (tree : Tree) (name : Text) (f : Logger → Logger) : Tree :=
  ⟨(tree.add name).loggers.put name (f ((tree.add name).get name)), tree.installed⟩

def addHandler (tree : Tree) (name : Text) (id : Nat) : Tree :=
  tree.change name fun l => l.addHandler id

/-- Installs a filter on a logger and on the handlers that the logger has now. -/
def install (tree : Tree) (name : Text) (redactor : Redactor) : Tree :=
  ⟨(tree.change name fun l => l.addFilter redactor).loggers,
    tree.installed ++ (tree.get name).handlers.map fun id => (id, redactor)⟩

def setPropagates (tree : Tree) (name : Text) (value : Bool) : Tree :=
  tree.change name fun l => ⟨l.parent, l.handlers, l.filters, value⟩

/-- A logger's name and the names of its parents up to the root. Every parent has a shorter name. -/
def lineage (tree : Tree) (name : Text) : List Text :=
  if _h : (tree.get name).parent.length < name.length then
    name :: lineage tree (tree.get name).parent
  else [name]
termination_by name.length

/-- The handlers that a record made on the first of these loggers reaches, in order. -/
def handlersAlong (tree : Tree) : List Text → List Nat
  | [] => []
  | name :: above =>
    let l := tree.get name
    l.handlers ++ if l.propagates then tree.handlersAlong above else []

end Tree
end Gatekeeper.Logging
