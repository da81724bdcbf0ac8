import Gatekeeper.Text.Basic

/-!
# Whitespace

The characters of the Unicode property White_Space, together with the four information separators.
A text is blank when nothing is left of it after trimming.
-/

namespace Gatekeeper.Text

/-- Ranges of whitespace code points, both ends included. -/
def spaceRanges : List (Nat × Nat) :=
  [(0x09, 0x0D), (0x1C, 0x20), (0x85, 0x85), (0xA0, 0xA0), (0x1680, 0x1680), (0x2000, 0x200A),
   (0x2028, 0x2029), (0x202F, 0x202F), (0x205F, 0x205F), (0x3000, 0x3000)]

def isSpace (c : Char) : Bool :=
  spaceRanges.any fun (low, high) => low ≤ c.toNat && c.toNat ≤ high

/-- The text from its first character that is no whitespace. -/
def trimStart (t : Text) : Text := t.dropWhile isSpace

/-- The text up to its last character that is no whitespace. -/
def trimEnd (t : Text) : Text := (t.reverse.dropWhile isSpace).reverse

def trim (t : Text) : Text := trimEnd (trimStart t)

def isBlank (t : Text) : Bool := t.all isSpace

def isBlank? (t : Option Text) : Bool := t.all isBlank

theorem trimStart_eq_nil_iff {t : Text} : trimStart t = [] ↔ isBlank t = true := by
  induction t with
  | nil => simp [trimStart, isBlank]
  | cons c rest ih =>
    by_cases h : isSpace c = true
    · have hr : trimStart (c :: rest) = trimStart rest := by simp [trimStart, h]
      rw [hr, ih]
      simp [isBlank, h]
    · simp [trimStart, isBlank, h]

end Gatekeeper.Text
