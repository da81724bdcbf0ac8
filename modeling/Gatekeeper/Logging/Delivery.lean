import Gatekeeper.Logging.Tree

/-!
# Delivery of records

A record goes through the filters of the logger it is made on, then to the handlers of that logger
and of its parents. A handler puts the record through its own filters first. The record is shared:
what a filter makes of it is what every later handler prints.
-/

namespace Gatekeeper.Logging

open Redaction (Redactor)

/-- What handlers printed, in order, and whether a filter failed on the way. -/
structure Output where
  printed : List (Nat × Text)
  result : Except TemplateFault Unit

def Output.silent : Output := ⟨[], .ok ()⟩

def Output.after (printed : Option (Nat × Text)) (o : Output) : Output :=
  ⟨printed.toList ++ o.printed, o.result⟩

/-- A handler prints the text of the record and a line feed, or nothing if the record has no text.
-/
def Record.print (r : Record) (handler : Nat) : Option (Nat × Text) :=
  match r.text with
  | .ok t => some (handler, t ++ ['\n'])
  | .error _ => none

namespace Tree

def emit (tree : Tree) (r : Record) : List Nat → Output
  | [] => .silent
  | handler :: rest =>
    match r.redactedAll (tree.filtersOf handler) with
    | .error fault => ⟨[], .error fault⟩
    | .ok r => (tree.emit r rest).after (r.print handler)

/-- The handlers that a record made on a logger reaches, in order. -/
def reached (tree : Tree) (name : Text) : List Nat := tree.handlersAlong (tree.lineage name)

def log (tree : Tree) (name : Text) (r : Record) : Output :=
  match r.redactedAll (tree.get name).filters with
  | .error fault => ⟨[], .error fault⟩
  | .ok r => tree.emit r (tree.reached name)

end Tree

inductive Action
  | addHandler (logger : Text) (id : Nat)
  | install (logger : Text) (redactor : Redactor)
  | setPropagates (logger : Text) (value : Bool)
  | log (logger : Text) (severity : Nat) (record : Record)

/-- The tree after an action, and what handlers printed during it. A record without severity is not
made. -/
def Tree.perform (tree : Tree) : Action → Tree × Output
  | .addHandler logger id => (tree.addHandler logger id, .silent)
  | .install logger redactor => (tree.install logger redactor, .silent)
  | .setPropagates logger value => (tree.setPropagates logger value, .silent)
  | .log logger severity record =>
    let tree := tree.add logger
    (tree, if severity = 0 then .silent else tree.log logger record)

def Tree.run (tree : Tree) : List Action → List Output
  | [] => []
  | action :: rest =>
    let (tree, output) := tree.perform action
    output :: tree.run rest

end Gatekeeper.Logging
