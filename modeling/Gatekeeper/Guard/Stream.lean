import Gatekeeper.Guard.Reference

/-!
# Streams

A stream is a list of instructions that build a list of classes on a stack: an empty list is put
there, then each class is put on top of it and appended, and at the end the list is handed over.
Streams of the later protocols start with their protocol.
-/

namespace Gatekeeper.Guard

inductive Instruction
  | version (protocol : Nat)
  | emptyList
  | member (r : Reference)
  | append
  | stop
  deriving DecidableEq

/-- What a stream holds: references, written with a protocol. -/
structure Payload where
  protocol : Nat
  references : List Reference

namespace Payload

def memberInstructions (references : List Reference) : List Instruction :=
  references.flatMap fun r => [.member r, .append]

/-- The protocol that a reader finds: the first two are not written, and count as zero. -/
def shownProtocol (p : Payload) : Nat := if 2 ≤ p.protocol then p.protocol else 0

def instructions (p : Payload) : List Instruction :=
  (if 2 ≤ p.protocol then [.version p.protocol] else []) ++
    .emptyList :: memberInstructions p.references ++ [.stop]

end Payload

/-- What can lie on the stack, by names: a class, or a list of classes. -/
inductive Item
  | member (name : Text)
  | list (names : List Text)
  deriving DecidableEq

end Gatekeeper.Guard
