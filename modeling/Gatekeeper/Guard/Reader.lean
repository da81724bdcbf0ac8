import Gatekeeper.Guard.Process
import Gatekeeper.Guard.Stream

/-!
# Readers

A reader restores the classes that a stream names. Each class goes through the reader's own
screen, then through the hooks of the process, and is looked up only then. A plain reader has no
screen of its own and cannot be given one. A load that fails leaves what follows in the stream; a
later load goes on there, with an empty stack. Main statement: the load of a whole stream restores
its references in order, up to the first that fails (`Reader.load_instructions`).
-/

namespace Gatekeeper.Guard

open Screening (Screen)

inductive ReaderScreen
  | plain
  | own (screen : Option Screen)

def ReaderScreen.screen? : ReaderScreen → Option Screen
  | .plain => none
  | .own screen => screen

/-- `protocol` is the one that the last load found, zero before. -/
structure Reader where
  screen : ReaderScreen
  formerNames : Bool := true
  unread : List Instruction
  protocol : Nat := 0

/-- How a reader is opened on a stream, which may be empty. -/
structure Opening where
  plain : Bool
  formerNames : Bool
  payload : Option Payload

def Opening.instructions (o : Opening) : List Instruction :=
  match o.payload with
  | some payload => payload.instructions
  | none => []

/-- How a load ended, what it left in the stream, and the protocol that it found. -/
structure Loaded where
  reported : Reported (List Text)
  unread : List Instruction
  protocol : Nat

def Loaded.after (notices : List Notice) (l : Loaded) : Loaded :=
  ⟨(notices ++ l.reported.1, l.reported.2), l.unread, l.protocol⟩

namespace Process

/-- A new reader starts out with the screen of the guard, unless hooks apply it already. -/
def openReader (p : Process) (o : Opening) : Reader where
  screen := if o.plain then .plain else .own p.state.streamScreen
  formerNames := o.formerNames
  unread := o.instructions

/-- A new reader that starts out with a screen of its own instead, if one is given and it can have
one. -/
def openReaderWith (p : Process) (o : Opening) (screen : Option Screen) : Reader :=
  match o.plain, screen with
  | false, some screen => ⟨.own (some screen), o.formerNames, o.instructions, 0⟩
  | _, _ => p.openReader o

def resolve (p : Process) (catalog : Catalog) (screen : ReaderScreen) (n : Naming)
    (r : Reference) : Reported Text :=
  (inspect screen.screen? r.dotted).andThen fun _ =>
    (p.inspectByHooks r.dotted p.hooks).andThen fun _ => .ofResult (catalog.resolve n r)

/-- Restores classes in order; the first that fails ends the work. -/
def resolveAll (p : Process) (catalog : Catalog) (screen : ReaderScreen) (n : Naming) :
    List Reference → Reported (List Text)
  | [] => .success []
  | r :: rest =>
    (p.resolve catalog screen n r).andThen fun name =>
      (p.resolveAll catalog screen n rest).andThen fun names => .success (name :: names)

/-- Follows instructions up to the first that fails, or up to the end of the stream. -/
def follow (p : Process) (catalog : Catalog) (screen : ReaderScreen) (n : Naming)
    (stack : List Item) : List Instruction → Loaded
  | [] => ⟨.failure .endOfStream, [], n.protocol⟩
  | .version protocol :: rest => p.follow catalog screen ⟨protocol, n.formerNames⟩ stack rest
  | .emptyList :: rest => p.follow catalog screen n (.list [] :: stack) rest
  | .member r :: rest =>
    match p.resolve catalog screen n r with
    | (notices, .ok name) => (p.follow catalog screen n (.member name :: stack) rest).after notices
    | (notices, .error fault) => ⟨(notices, .error fault), rest, n.protocol⟩
  | .append :: rest =>
    match stack with
    | .member name :: .list names :: below =>
      p.follow catalog screen n (.list (names ++ [name]) :: below) rest
    | _ => ⟨.failure .stackTooSmall, rest, n.protocol⟩
  | .stop :: rest =>
    match stack with
    | .list names :: _ => ⟨.success names, rest, n.protocol⟩
    | _ => ⟨.failure .stackTooSmall, rest, n.protocol⟩

theorem reported_follow_memberInstructions (p : Process) (catalog : Catalog)
    (screen : ReaderScreen) (n : Naming) (names : List Text) (below : List Item)
    (references : List Reference) :
    (p.follow catalog screen n (.list names :: below)
      (Payload.memberInstructions references ++ [.stop])).reported =
      (p.resolveAll catalog screen n references).andThen fun more => .success (names ++ more) := by
  induction references generalizing names with
  | nil => simp [Payload.memberInstructions, follow, resolveAll]
  | cons r rest ih =>
    simp only [Payload.memberInstructions, List.flatMap_cons, List.cons_append, List.nil_append,
      follow, resolveAll]
    rcases hr : p.resolve catalog screen n r with ⟨notices, fault | name⟩
    · rfl
    · rcases hm : p.resolveAll catalog screen n rest with ⟨more, fault | members⟩ <;>
        simp_all [Payload.memberInstructions, Loaded.after, Reported.andThen, Reported.success]

end Process

namespace Reader

def naming (r : Reader) : Naming := ⟨r.protocol, r.formerNames⟩

def setScreen (r : Reader) (screen : Option Screen) : Except Fault Reader :=
  match r.screen with
  | .plain => .error .readerWithoutScreen
  | .own _ => .ok ⟨.own screen, r.formerNames, r.unread, r.protocol⟩

/-- Restores a class by its reference, outside of a stream. -/
def find (r : Reader) (p : Process) (catalog : Catalog) (reference : Reference) : Reported Text :=
  p.resolve catalog r.screen r.naming reference

/-- Restores the classes of the stream, from where the last load ended. -/
def load (r : Reader) (p : Process) (catalog : Catalog) : Loaded :=
  p.follow catalog r.screen ⟨0, r.formerNames⟩ [] r.unread

theorem load_instructions (r : Reader) (p : Process) (catalog : Catalog) (payload : Payload)
    (h : r.unread = payload.instructions) :
    (r.load p catalog).reported =
      p.resolveAll catalog r.screen ⟨payload.shownProtocol, r.formerNames⟩ payload.references := by
  have key := p.reported_follow_memberInstructions catalog r.screen
    ⟨payload.shownProtocol, r.formerNames⟩ [] [] payload.references
  have hid : ∀ x : Reported (List Text), (x.andThen fun more => .success ([] ++ more)) = x := by
    rintro ⟨notices, fault | names⟩ <;> simp [Reported.andThen, Reported.success]
  rw [hid] at key
  rw [← key, load, h, Payload.instructions, Payload.shownProtocol]
  split <;> simp [Process.follow]

def afterLoad (r : Reader) (l : Loaded) : Reader := ⟨r.screen, r.formerNames, l.unread, l.protocol⟩

end Reader
end Gatekeeper.Guard
