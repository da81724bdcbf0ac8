import Gatekeeper.Fault

/-!
# Joining clauses

Clauses are gathered in one text. Blank clauses are left out, and a delimiter goes between two
clauses unless the text ends with one already.
-/

namespace Gatekeeper.Screening

def joinClause (delimiter text clause : Text) : Text :=
  if text.isEmpty || delimiter.isSuffixOf text then text ++ clause else text ++ delimiter ++ clause

structure Joiner where
  delimiter : Text := [';']
  text : Text := []
  deriving DecidableEq

namespace Joiner

def append (j : Joiner) (clause : Option Text) : Joiner :=
  match clause with
  | none => j
  | some clause =>
    if Text.isBlank clause then j else ⟨j.delimiter, joinClause j.delimiter j.text clause⟩

def start (delimiter : Text) (first : Option Text) : Joiner := append ⟨delimiter, []⟩ first

def appendAll (j : Joiner) (clauses : List (Option Text)) : Joiner := clauses.foldl append j

/-- Appends a clause that may be no text, through a delimiter that may be none. The delimiter is a
fault only once it is needed. -/
def appendValue (delimiter : Option Text) (text : Text) : Value → Except Fault Text
  | .null => .ok text
  | .text clause =>
    if Text.isBlank clause then .ok text
    else if text.isEmpty then .ok clause
    else
      match delimiter with
      | some delimiter => .ok (joinClause delimiter text clause)
      | none => .error .delimiterNotText
  | _ => .error .clauseNotText

def history (delimiter : Option Text) (text : Text) : List Value → Except Fault (List Text)
  | [] => .ok []
  | clause :: rest =>
    match appendValue delimiter text clause with
    | .error fault => .error fault
    | .ok text =>
      match history delimiter text rest with
      | .error fault => .error fault
      | .ok texts => .ok (text :: texts)

/-- The joined text as it is shown in messages. -/
def describe (text : Text) : Text := "DelimitedStringBuilder(".toList ++ Text.quoted text ++ [')']

end Joiner
end Gatekeeper.Screening
