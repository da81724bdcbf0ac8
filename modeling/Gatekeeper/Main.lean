import Gatekeeper.Command.Run

/-!
# The command line

Runs the command that the arguments ask for. The core contributor is the one that is registered.
-/

namespace Gatekeeper

/-- What follows from the arguments and the input: what is printed, and the status. -/
def outputOf (arguments : List Text) (input : Text) : Command.Output :=
  match Command.ofLine arguments with
  | .error .helped => ⟨0, Command.overviewText, []⟩
  | .error .misused => ⟨2, [], Command.overviewText⟩
  | .ok command =>
    match (command.run (.ok [Contributor.core]) input).2 with
    | .ok output => output
    | .error fault => ⟨1, [], Command.complaintOf fault⟩

/-- Only a redaction without texts reads the input. -/
def readsInput (arguments : List Text) : Bool :=
  match Command.ofLine arguments with
  | .ok (.redact []) => true
  | _ => false

partial def readRest (stream : IO.FS.Stream) (before : String) : IO String := do
  let line ← stream.getLine
  if line.isEmpty then return before else readRest stream (before ++ line)

end Gatekeeper

def main (arguments : List String) : IO UInt32 := do
  let words := arguments.map String.toList
  let input ←
    if Gatekeeper.readsInput words then Gatekeeper.readRest (← IO.getStdin) "" else pure ""
  let output := Gatekeeper.outputOf words input.toList
  (← IO.getStdout).putStr (String.ofList output.printed)
  (← IO.getStderr).putStr (String.ofList output.complaint)
  return output.status.toUInt32
