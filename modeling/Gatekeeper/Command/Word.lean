import Gatekeeper.Text.Digit

/-!
# The words of a command line

A word that starts with a hyphen names an option, and any other word is an operand. An option goes
by its name or by any beginning of it that fits no other option, and a value can be attached
behind an equals sign. Help alone has a short form, a hyphen and a letter, and letters behind it
count as further short forms. After a double hyphen that stands alone every word is an operand. So
are a hyphen alone, a negative number, and a word with a blank in it that names no option.
-/

namespace Gatekeeper.Command

inductive Switch
  | help
  | extra
  | management
  | pattern
  deriving DecidableEq

namespace Switch

def name : Switch → Text
  | .help => "--help".toList
  | .extra => "--extra".toList
  | .management => "--management".toList
  | .pattern => "--pattern".toList

def takesValue : Switch → Bool
  | .extra | .pattern => true
  | .help | .management => false

end Switch

inductive Word
  | operand (text : Text)
  | separator
  | option (s : Switch) (attached : Option Text)
  | unknown
  | ambiguous
  deriving DecidableEq

def separatorText : Text := ['-', '-']

/-- A negative number, with at most one line feed behind it. -/
def isNegative : Text → Bool
  | '-' :: rest => Text.isNumeral (if rest.getLast? = some '\n' then rest.dropLast else rest)
  | _ => false

/-- Whether what follows the short form of help only calls for help again: the letter any number of
times, or at least once behind an equals sign. -/
def isHelpAgain : Text → Bool
  | '=' :: rest => !rest.isEmpty && rest.all (· = 'h')
  | rest => rest.all (· = 'h')

namespace Word

def loose (t : Text) : Word :=
  if isNegative t || t.contains ' ' then .operand t else .unknown

/-- A word of two hyphens and more. -/
def long (switches : List Switch) (t : Text) : Word :=
  let (name, attached) := Text.cutAt '=' t
  match switches.filter fun s => name.isPrefixOf s.name with
  | [] => loose t
  | [s] => .option s attached
  | _ => .ambiguous

def read (switches : List Switch) : Text → Word
  | '-' :: '-' :: rest => long switches ('-' :: '-' :: rest)
  | '-' :: 'h' :: rest => .option .help (if isHelpAgain rest then none else some rest)
  | '-' :: c :: rest => loose ('-' :: c :: rest)
  | t => .operand t

def readAll (switches : List Switch) : List Text → List Word
  | [] => []
  | t :: rest =>
    if t = separatorText then .separator :: rest.map .operand
    else read switches t :: readAll switches rest

end Word
end Gatekeeper.Command
