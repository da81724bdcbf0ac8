import Gatekeeper.Text.Basic

/-!
# Fractions in decimal

Writes a fraction to a number of places, or to a number of digits and a power of ten. A fraction is
first brought to the nearest number with 53 binary digits. Rounding is to the nearest, and a tie
goes to the even neighbour.
-/

namespace Gatekeeper

/-- `num / den`; `den` is positive. -/
structure Fraction where
  num : Nat
  den : Nat
  deriving DecidableEq

namespace Fraction

def round (f : Fraction) : Nat :=
  let below := f.num / f.den
  match compare (2 * (f.num % f.den)) f.den with
  | .lt => below
  | .gt => below + 1
  | .eq => below + below % 2

def scale (f : Fraction) (base : Nat) (power : Int) : Fraction :=
  ⟨f.num * base.pow power.toNat, f.den * base.pow (-power).toNat⟩

/-- The greatest power of a base that is not above a fraction other than zero. The sizes of its
parts in that base leave two to choose from. -/
def leading (f : Fraction) (base : Nat) : Int :=
  let guess : Int := (Nat.toDigits base f.num).length - (Nat.toDigits base f.den).length
  let power := f.scale base (-guess)
  if power.den ≤ power.num then guess else guess - 1

/-- The nearest number with 53 binary digits; fewer are left of the smallest numbers. -/
def toBinary (f : Fraction) : Fraction :=
  if f.num = 0 then f
  else
    let unit := max (f.leading 2 - 52) (-1074)
    (⟨(f.scale 2 (-unit)).round, 1⟩ : Fraction).scale 2 unit

def isTooLarge (f : Fraction) : Bool := Nat.pow 2 1024 * f.den ≤ f.num

/-- Digits of which the last `places` stand behind the point. -/
def pointed (places : Nat) (digits : Text) : Text :=
  let digits := List.replicate (places + 1 - digits.length) '0' ++ digits
  let whole := digits.length - places
  if places = 0 then digits else digits.take whole ++ '.' :: digits.drop whole

def fixed (places : Nat) (f : Fraction) : Text :=
  pointed places (Nat.toDigits 10 (f.scale 10 places).round)

/-- The first digits of a fraction, `places` of them behind the first, and the power of ten of the
first. -/
def significant (places : Nat) (f : Fraction) : Nat × Int :=
  if f.num = 0 then (0, 0)
  else
    let power := f.leading 10
    let digits := (f.scale 10 (places - power)).round
    if digits < Nat.pow 10 (places + 1) then (digits, power) else (digits / 10, power + 1)

/-- A power of ten behind its mark, with its sign and at least two digits. -/
def exponent (mark : Char) (power : Int) : Text :=
  let size := Nat.toDigits 10 power.natAbs
  mark :: (if power < 0 then '-' else '+') :: List.replicate (2 - size.length) '0' ++ size

/-- The digits of a fraction and its power of ten, apart. -/
def scientific (places : Nat) (f : Fraction) : Text × Int :=
  let (digits, power) := f.significant places
  (pointed places (Nat.toDigits 10 digits), power)

/-- A text with a point, without zeros at its end and without the point if it comes to stand there.
-/
def withoutZeros (t : Text) : Text :=
  if t.contains '.' then
    let kept := t.reverse.dropWhile (· = '0')
    (match kept with | '.' :: rest => rest | _ => kept).reverse
  else t

end Fraction
end Gatekeeper
