import Gatekeeper.Fault
import Gatekeeper.Text.Fraction

/-!
# Message templates

A template is a text with forms in it. A form starts with a percent sign and goes on with an
optional key in parentheses, flags, a width, a precision and the letter of a conversion. Each form
takes the next argument or, with a key, that field of the one record that is given. Positional
arguments must be used up exactly. A percent sign right behind another stands for itself.
-/

namespace Gatekeeper.Logging

/-- A width or a precision: none, a number, or the next argument. -/
inductive Amount
  | unset
  | fixed (n : Nat)
  | argument
  deriving DecidableEq

structure Form where
  key : Option Text
  flags : Text
  width : Amount
  precision : Amount
  conversion : Option Char
  deriving DecidableEq

inductive Element
  | literal (c : Char)
  | form (f : Form)
  | unclosedKey
  deriving DecidableEq

/-! ## Reading -/

def isFlag (c : Char) : Bool := ['-', '+', ' ', '#', '0'].contains c

def isSizeLetter (c : Char) : Bool := ['h', 'l', 'L'].contains c

def numberOf (digits : Text) : Nat := digits.foldl (fun n c => 10 * n + (c.toNat - 48)) 0

/-- A key up to its closing parenthesis, and what follows it; parentheses nest. -/
def readKey? (depth : Nat) : Text → Option (Text × Text)
  | [] => none
  | c :: rest =>
    if c = ')' then
      match depth with
      | 0 => some ([], rest)
      | depth + 1 => (readKey? depth rest).map fun (key, after) => (c :: key, after)
    else
      (readKey? (if c = '(' then depth + 1 else depth) rest).map fun (key, after) =>
        (c :: key, after)

def readAmount (t : Text) : Amount × Text :=
  match t with
  | '*' :: rest => (.argument, rest)
  | t =>
    match t.takeWhile Char.isDigit with
    | [] => (.unset, t)
    | digits => (.fixed (numberOf digits), t.dropWhile Char.isDigit)

/-- A precision follows a point; the point alone stands for zero. -/
def readPrecision (t : Text) : Amount × Text :=
  match t with
  | '.' :: rest =>
    match readAmount rest with
    | (.unset, after) => (.fixed 0, after)
    | other => other
  | t => (.unset, t)

def skipSizeLetter : Text → Text
  | [] => []
  | c :: rest => if isSizeLetter c then rest else c :: rest

def readTail (key : Option Text) (t : Text) : Form × Text :=
  let (width, afterWidth) := readAmount (t.dropWhile isFlag)
  let (precision, afterPrecision) := readPrecision afterWidth
  match skipSizeLetter afterPrecision with
  | [] => (⟨key, t.takeWhile isFlag, width, precision, none⟩, [])
  | c :: rest => (⟨key, t.takeWhile isFlag, width, precision, some c⟩, rest)

/-- What a percent sign and the text behind it stand for. -/
def readForm (t : Text) : Element × Text :=
  match t with
  | '%' :: rest => (.literal '%', rest)
  | '(' :: rest =>
    match readKey? 0 rest with
    | none => (.unclosedKey, [])
    | some (key, after) =>
      let (form, rest') := readTail (some key) after
      (.form form, rest')
  | t =>
    let (form, rest') := readTail none t
    (.form form, rest')

theorem length_readKey?_le {depth : Nat} {t key rest : Text}
    (h : readKey? depth t = some (key, rest)) : rest.length ≤ t.length := by
  induction t generalizing depth key with
  | nil => simp [readKey?] at h
  | cons c t ih =>
    unfold readKey? at h
    split at h
    · split at h
      · obtain ⟨_, rfl⟩ := Prod.mk.inj (Option.some.inj h)
        simp
      · obtain ⟨⟨k, r⟩, hk, he⟩ := Option.map_eq_some_iff.1 h
        obtain ⟨_, rfl⟩ := Prod.mk.inj he
        exact Nat.le_succ_of_le (ih hk)
    · obtain ⟨⟨k, r⟩, hk, he⟩ := Option.map_eq_some_iff.1 h
      obtain ⟨_, rfl⟩ := Prod.mk.inj he
      exact Nat.le_succ_of_le (ih hk)

theorem length_readAmount_le (t : Text) : (readAmount t).2.length ≤ t.length := by
  unfold readAmount
  split
  · simp
  · split
    · simp
    · exact (List.dropWhile_sublist _).length_le

theorem length_readPrecision_le (t : Text) : (readPrecision t).2.length ≤ t.length := by
  unfold readPrecision
  split
  · next rest =>
    have h := length_readAmount_le rest
    split <;> simp_all <;> omega
  · simp

theorem length_skipSizeLetter_le (t : Text) : (skipSizeLetter t).length ≤ t.length := by
  cases t with
  | nil => simp [skipSizeLetter]
  | cons c t =>
    simp only [skipSizeLetter]
    split <;> simp

theorem length_readTail_le (key : Option Text) (t : Text) :
    (readTail key t).2.length ≤ t.length := by
  have hflags : (t.dropWhile isFlag).length ≤ t.length := (List.dropWhile_sublist _).length_le
  have hwidth := length_readAmount_le (t.dropWhile isFlag)
  have hprecision := length_readPrecision_le (readAmount (t.dropWhile isFlag)).2
  have hsize := length_skipSizeLetter_le (readPrecision (readAmount (t.dropWhile isFlag)).2).2
  simp only [readTail]
  split
  · simp
  · next c rest h =>
    rw [h, List.length_cons] at hsize
    simp only
    omega

theorem length_readForm_le (t : Text) : (readForm t).2.length ≤ t.length := by
  unfold readForm
  split
  · simp
  · split
    · simp
    · next key after hkey =>
      have := length_readKey?_le hkey
      have := length_readTail_le (some key) after
      simp only [List.length_cons]
      omega
  · exact length_readTail_le none t

def elements (t : Text) : List Element :=
  match t with
  | [] => []
  | c :: rest =>
    if c = '%' then (readForm rest).1 :: elements (readForm rest).2
    else .literal c :: elements rest
termination_by t.length
decreasing_by
  · exact Nat.lt_succ_of_le (length_readForm_le rest)
  · exact Nat.lt_succ_self _

/-! ## Writing -/

structure Layout where
  flags : Text
  width : Nat
  precision : Option Nat

def Layout.has (l : Layout) (flag : Char) : Bool := l.flags.contains flag

/-- What an argument is laid out from. Zeros can stand between the lead and body of a number. -/
structure Cell where
  lead : Text
  body : Text
  isNumber : Bool

/-- Brings a cell to the width: with blanks in front, with blanks behind it, or with zeros behind
the lead. -/
def Layout.pad (l : Layout) (c : Cell) : Text :=
  let missing := l.width - (c.lead.length + c.body.length)
  if l.has '-' then c.lead ++ c.body ++ List.replicate missing ' '
  else if c.isNumber && l.has '0' then c.lead ++ List.replicate missing '0' ++ c.body
  else List.replicate missing ' ' ++ c.lead ++ c.body

def Layout.text (l : Layout) (t : Text) : Cell :=
  ⟨[], match l.precision with | some n => t.take n | none => t, false⟩

def Layout.sign (l : Layout) (n : Int) : Text :=
  if n < 0 then ['-'] else if l.has '+' then ['+'] else if l.has ' ' then [' '] else []

/-- A number in a base, after its sign and, with the flag `#`, the mark of the base. -/
def Layout.number (l : Layout) (base : Nat) (mark : Text) (upper : Bool) (n : Int) : Cell :=
  let digits := Nat.toDigits base n.natAbs
  let digits := List.replicate ((l.precision.getD 0) - digits.length) '0' ++ digits
  ⟨l.sign n ++ if l.has '#' then mark else [], if upper then digits.map Char.toUpper else digits,
    true⟩

def integerOf? : Value → Option Int
  | .integer n => some n
  | .flag b => some (if b then 1 else 0)
  | _ => none

/-- The size of a number as a fraction, and whether the number is negative. -/
def fractionOf? : Value → Option (Fraction × Bool)
  | .decimal n k => some (⟨n.natAbs, Nat.pow 10 k⟩, n < 0)
  | v => (integerOf? v).map fun n => (⟨n.natAbs, 1⟩, n < 0)

/-- The integer that is left of a number without its fraction. -/
def wholeOf? : Value → Option Int
  | .decimal n k => some (n.tdiv (Nat.pow 10 k))
  | v => integerOf? v

def characterOf : Value → Except TemplateFault Char
  | .text [c] => .ok c
  | v =>
    match integerOf? v with
    | none => .error .argumentMismatch
    | some n =>
      if 0 ≤ n ∧ n.toNat.isValidChar then .ok (Char.ofNat n.toNat) else .error .outOfRange

/-- A literal with every character beyond ASCII written by its code point. -/
def asciiLiteral (v : Value) : Text :=
  v.literal.flatMap fun c => if c.toNat < 0x80 then [c] else Text.codePointEscape c

/-- No number with 53 binary digits has more digits than these. -/
def exactDigits : Nat := 1100

/-- The digits of a fraction as a conversion writes them: to a number of places, with a power of
ten, or in the shorter of the two ways without zeros at the end. The flag `#` keeps point and zeros.
-/
def Layout.fraction (l : Layout) (conversion : Char) (f : Fraction) : Text :=
  let mark := if conversion.isUpper then 'E' else 'e'
  let pointed (t : Text) := if l.has '#' && !t.contains '.' then t ++ ['.'] else t
  let places := l.precision.getD 6
  match conversion.toLower with
  | 'f' => pointed (f.fixed places)
  | 'e' =>
    let (digits, power) := f.scientific places
    pointed digits ++ Fraction.exponent mark power
  | _ =>
    let digits := max 1 (if l.has '#' then places else min places exactDigits)
    let (mantissa, power) := f.scientific (digits - 1)
    let finished (t : Text) := if l.has '#' then pointed t else Fraction.withoutZeros t
    if -4 ≤ power ∧ power < digits then finished (f.fixed (digits - 1 - power).toNat)
    else finished mantissa ++ Fraction.exponent mark power

/-- A number with a fraction, after its sign. -/
def Layout.real (l : Layout) (conversion : Char) (v : Value) : Except TemplateFault Cell :=
  match fractionOf? v with
  | none => .error .argumentMismatch
  | some (f, negative) =>
    let f := f.toBinary
    if f.isTooLarge then .error .outOfRange
    else .ok ⟨l.sign (if negative then -1 else 0), l.fraction conversion f, true⟩

def widthLimit : Nat := Nat.pow 2 63 - 1

def precisionLimit : Nat := Nat.pow 2 31 - 1

/-- From this width on there is no room for the text. -/
def roomLimit : Nat := Nat.pow 2 32

def Layout.cell (l : Layout) (conversion : Char) (v : Value) : Except TemplateFault Cell :=
  let numeric (n : Option Int) (base : Nat) (mark : Text) (upper : Bool) :=
    match n with
    | some n =>
      if l.precision.any (precisionLimit < · + 3) then .error .outOfRange
      else .ok (l.number base mark upper n)
    | none => .error .argumentMismatch
  match conversion with
  | 's' => .ok (l.text v.display)
  | 'r' => .ok (l.text v.literal)
  | 'a' => .ok (l.text (asciiLiteral v))
  | 'd' | 'i' | 'u' => numeric (wholeOf? v) 10 [] false
  | 'o' => numeric (integerOf? v) 8 ['0', 'o'] false
  | 'x' => numeric (integerOf? v) 16 ['0', 'x'] false
  | 'X' => numeric (integerOf? v) 16 ['0', 'X'] true
  | 'e' | 'E' | 'f' | 'F' | 'g' | 'G' => l.real conversion v
  | 'c' => (characterOf v).map fun c => ⟨[], [c], false⟩
  | _ => .error .malformedForm

def Layout.convert (l : Layout) (conversion : Char) (v : Value) : Except TemplateFault Text :=
  match l.cell conversion v with
  | .error fault => .error fault
  | .ok c => if l.width < roomLimit then .ok (l.pad c) else .error .noRoom

/-! ## Filling in -/

/-- The arguments that are left, and the record whose fields keys refer to. -/
structure Supply where
  fields : Option (List (Text × Value))
  queue : List Value

namespace Supply

/-- A single record that is not empty serves for keys. -/
def ofArguments : List Value → Supply
  | [.record (field :: fields)] => ⟨some (field :: fields), [.record (field :: fields)]⟩
  | arguments => ⟨none, arguments⟩

def next (s : Supply) : Except TemplateFault (Value × Supply) :=
  match s.queue with
  | [] => .error .argumentMismatch
  | v :: rest => .ok (v, ⟨s.fields, rest⟩)

/-- The field that a key names becomes the next argument. -/
def select (s : Supply) : Option Text → Except TemplateFault Supply
  | none => .ok s
  | some key =>
    match s.fields with
    | none => .error .argumentMismatch
    | some fields =>
      match fields.lookup key with
      | none => .error .missingKey
      | some v => .ok ⟨s.fields, [v]⟩

def amount (limit : Nat) (s : Supply) : Amount → Except TemplateFault (Option Int × Supply)
  | .unset => .ok (none, s)
  | .fixed n => if n ≤ limit then .ok (some n, s) else .error .malformedForm
  | .argument =>
    match s.next with
    | .error fault => .error fault
    | .ok (v, s) =>
      match integerOf? v with
      | none => .error .argumentMismatch
      | some n => if n.natAbs ≤ limit then .ok (some n, s) else .error .outOfRange

/-- Whether every argument was used; fields of a record need not be. -/
def isSpent (s : Supply) : Bool := s.fields.isSome || s.queue.isEmpty

end Supply

/-- A negative width stands for its size and the flag `-`; a negative precision for zero. -/
def Layout.of (flags : Text) (width precision : Option Int) : Layout where
  flags := if width.any (· < 0) then '-' :: flags else flags
  width := (width.map Int.natAbs).getD 0
  precision := precision.map Int.toNat

def Form.fill (f : Form) (s : Supply) : Except TemplateFault (Text × Supply) := do
  let s ← s.select f.key
  let (width, s) ← s.amount widthLimit f.width
  let (precision, s) ← s.amount precisionLimit f.precision
  match f.conversion with
  | none => .error .malformedForm
  | some conversion =>
    let (v, s) ← s.next
    let written ← (Layout.of f.flags width precision).convert conversion v
    .ok (written, s)

def fillAll (s : Supply) : List Element → Except TemplateFault Text
  | [] => if s.isSpent then .ok [] else .error .argumentMismatch
  | .literal c :: rest => (fillAll s rest).map (c :: ·)
  | .unclosedKey :: _ =>
    if s.fields.isSome then .error .malformedForm else .error .argumentMismatch
  | .form f :: rest =>
    match f.fill s with
    | .error fault => .error fault
    | .ok (written, s) => (fillAll s rest).map (written ++ ·)

def fill (template : Text) (arguments : List Value) : Except TemplateFault Text :=
  fillAll (.ofArguments arguments) (elements template)

end Gatekeeper.Logging
