import Gatekeeper.Command.Word

/-!
# Commands

A command line asks for one command: to redact texts, to print a pattern, or to check a class. What
it asks for is settled from left to right. A call for help ends the reading, and so does an option
that lacks its value or has one that it does not take; anything left over at the end is a misuse.
-/

namespace Gatekeeper

/-- What an option is set to. The separator as an attached value leaves it without a text. -/
inductive Command.Setting
  | text (t : Text)
  | noText
  deriving DecidableEq

inductive Command
  | overview
  | redact (texts : List Text)
  | pattern (extra : Option Command.Setting) (management : Bool)
  | check (name : Text) (clause : Option Command.Setting)
  deriving DecidableEq

namespace Command

def Setting.ofAttached (t : Text) : Setting := if t = separatorText then .noText else .text t

/-- Why a line comes to no command. -/
inductive Ending
  | helped
  | misused
  deriving DecidableEq

/-- A word in its place: an option stands together with its value. -/
inductive Piece
  | operand (text : Text)
  | separator
  | setting (s : Switch) (value : Setting)
  | surplus
  deriving DecidableEq

def pieces : List Word → Except Ending (List Piece)
  | [] => .ok []
  | .operand t :: rest => (pieces rest).map (.operand t :: ·)
  | .separator :: rest => (pieces rest).map (.separator :: ·)
  | .unknown :: rest => (pieces rest).map (.surplus :: ·)
  | .ambiguous :: _ => .error .misused
  | .option s (some value) :: rest =>
    if s.takesValue then (pieces rest).map (.setting s (.ofAttached value) :: ·)
    else .error .misused
  | .option s none :: .operand t :: rest =>
    if s.takesValue then (pieces rest).map (.setting s (.text t) :: ·)
    else if s = .help then .error .helped
    else (pieces rest).map fun found => .setting s .noText :: .operand t :: found
  | .option s none :: rest =>
    if s.takesValue then .error .misused
    else if s = .help then .error .helped
    else (pieces rest).map (.setting s .noText :: ·)

/-- The pieces of a line; an ambiguous word anywhere is a misuse. -/
def piecesOf (switches : List Switch) (line : List Text) : Except Ending (List Piece) :=
  let words := Word.readAll switches line
  if words.contains .ambiguous then .error .misused else pieces words

def Piece.isSetting : Piece → Bool
  | .setting _ _ => true
  | _ => false

/-- What an option was set to last. -/
def lastSetting? (s : Switch) (found : List Piece) : Option Setting :=
  (found.filterMap fun
    | .setting t value => if t = s then some value else none
    | _ => none).getLast?

/-- The texts of the operands, unless something else is among the pieces than operands and the
separator. -/
def texts? : List Piece → Option (List Text)
  | [] => some []
  | .operand t :: rest => (texts? rest).map (t :: ·)
  | .separator :: rest => texts? rest
  | _ => none

/-- The one operand, next to which the separator may stand; else there are only settings. -/
def soleOperand? : List Piece → Option Text
  | .setting _ _ :: rest => soleOperand? rest
  | .operand t :: .separator :: rest => if rest.all Piece.isSetting then some t else none
  | .operand t :: rest => if rest.all Piece.isSetting then some t else none
  | [.separator, .operand t] => some t
  | _ => none

def orMisuse {α : Type} : Option α → Except Ending α
  | some a => .ok a
  | none => .error .misused

def redactOf (line : List Text) : Except Ending Command :=
  match piecesOf [.help] line with
  | .error ending => .error ending
  | .ok found => (orMisuse (texts? found)).map .redact

def patternOf (line : List Text) : Except Ending Command :=
  match piecesOf [.help, .extra, .management] line with
  | .error ending => .error ending
  | .ok found =>
    if found.all Piece.isSetting then
      .ok (.pattern (lastSetting? .extra found) (lastSetting? .management found).isSome)
    else .error .misused

def checkOf (line : List Text) : Except Ending Command :=
  match piecesOf [.help, .pattern] line with
  | .error ending => .error ending
  | .ok found =>
    (orMisuse (soleOperand? found)).map fun name => .check name (lastSetting? .pattern found)

/-- The command of a name, with the line that follows the name. -/
def named (name : Text) (line : List Text) : Except Ending Command :=
  if name = "redact".toList then redactOf line
  else if name = "pattern".toList then patternOf line
  else if name = "check".toList then checkOf line
  else .error .misused

/-- The command that a line asks for; an empty line asks for the overview. An unknown option in
front of the name is a misuse, unless help is called for behind it. -/
def ofLine : List Text → Except Ending Command
  | [] => .ok .overview
  | t :: rest =>
    if t = separatorText then .error .misused
    else
      match Word.read [.help] t with
      | .operand name => named name rest
      | .option _ none => .error .helped
      | .unknown =>
        match ofLine rest with
        | .error .helped => .error .helped
        | _ => .error .misused
      | _ => .error .misused

end Command
end Gatekeeper
