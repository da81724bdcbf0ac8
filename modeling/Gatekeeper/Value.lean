import Gatekeeper.Text.Blank
import Gatekeeper.Text.Quoted

/-!
# Values

What a settings file, a log call or an error may hold besides text. A value is shown in two ways:
`display` writes a text as it is, `literal` writes it quoted, as every text inside a list or a
record is.
-/

namespace Gatekeeper

/-- `decimal n k` is `n / 10 ^ k`, written with a point. -/
inductive Value
  | null
  | flag (b : Bool)
  | integer (n : Int)
  | decimal (unscaled : Int) (places : Nat)
  | text (t : Text)
  | list (items : List Value)
  | record (fields : List (Text × Value))
  deriving Inhabited

namespace Text

def ofNat (n : Nat) : Text := Nat.toDigits 10 n

def ofInt : Int → Text
  | .ofNat n => ofNat n
  | .negSucc n => '-' :: ofNat (n + 1)

/-- Significant digits and the place of the point, counted from before the first digit. -/
def decimalMagnitude (point : Int) (digits : Text) : Text :=
  if digits.isEmpty then ['0', '.', '0']
  else if -4 < point ∧ point ≤ 16 then
    if point ≤ 0 then ['0', '.'] ++ List.replicate (-point).toNat '0' ++ digits
    else
      let whole := digits.take point.toNat
      let fraction := digits.drop point.toNat
      whole ++ List.replicate (point.toNat - whole.length) '0' ++ '.' ::
        (if fraction.isEmpty then ['0'] else fraction)
  else
    let power := point - 1
    let size := ofNat power.natAbs
    digits.take 1 ++ (if digits.length = 1 then [] else '.' :: digits.drop 1) ++
      'e' :: (if power < 0 then '-' else '+') :: List.replicate (2 - size.length) '0' ++ size

/-- A decimal without trailing zeros: positional from 10⁻⁴ up to 10¹⁶, by its power of ten beyond.
-/
def ofDecimal (unscaled : Int) (places : Nat) : Text :=
  let written := if unscaled = 0 then [] else ofNat unscaled.natAbs
  let digits := (written.reverse.dropWhile (· = '0')).reverse
  let magnitude := decimalMagnitude (written.length - places) digits
  if unscaled < 0 then '-' :: magnitude else magnitude

end Text

namespace Value

def ofText? : Option Text → Value
  | none => .null
  | some t => .text t

def text? : Value → Option Text
  | .text t => some t
  | _ => none

/-- Pieces in order with a comma and a blank between them. -/
def commaJoined (pieces : List Text) : Text := Text.joined [',', ' '] pieces

mutual

/-- A value as it stands inside a list or a record. -/
def literal : Value → Text
  | .null => "None".toList
  | .flag true => "True".toList
  | .flag false => "False".toList
  | .integer n => Text.ofInt n
  | .decimal n k => Text.ofDecimal n k
  | .text t => Text.quoted t
  | .list items => '[' :: commaJoined (literals items) ++ [']']
  | .record fields => '\x7b' :: commaJoined (fieldLiterals fields) ++ ['\x7d']

def literals : List Value → List Text
  | [] => []
  | v :: rest => literal v :: literals rest

def fieldLiterals : List (Text × Value) → List Text
  | [] => []
  | (key, v) :: rest => (Text.quoted key ++ ':' :: ' ' :: literal v) :: fieldLiterals rest

end

def display : Value → Text
  | .text t => t
  | v => literal v

/-- A value stands for true unless it is nothing, false, zero or empty. -/
def isTruthy : Value → Bool
  | .null => false
  | .flag b => b
  | .integer n => n ≠ 0
  | .decimal n _ => n ≠ 0
  | .text t => !t.isEmpty
  | .list items => !items.isEmpty
  | .record fields => !fields.isEmpty

/-- Whether a setting is switched on: a flag as it stands, any other value when it is shown as `1`
or `true` in either case, blanks around it aside. -/
def isEnabled : Value → Bool
  | .flag b => b
  | .null => false
  | v =>
    let word := (Text.trim (display v)).map Char.toLower
    word = ['1'] || word = "true".toList

end Value
end Gatekeeper
