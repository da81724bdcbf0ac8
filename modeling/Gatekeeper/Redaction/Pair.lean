import Gatekeeper.Redaction.Marker

/-!
# Pairs

An option with its argument, as a command line or a property listing holds it:

    --option=argument           --option argument         --option = argument
    -Dproperty=value            --J=-Dproperty=value      property=value (first on the line only)
    --option="quoted -argument"

Each part is read at the start of a text by a reader that returns the part and what follows it.
An argument that stands after blanks alone may not look like the start of another pair; this keeps
`--flag --option=value` two pairs. A quote that is never closed runs to the end of the text.

Main statement: a pair that is read stands at the start of the text (`eq_append_of_read?`) and is
not empty (`text_ne_nil_of_read?`).
-/

namespace Gatekeeper.Redaction

def isOptionChar (c : Char) : Bool := !Text.isSpace c && c ≠ '=' && c ≠ '"'

def isOptionStart (c : Char) : Bool := isOptionChar c && !isHyphen c

/-- A space or a tab, as it may stand around an equals sign. -/
def isPad (c : Char) : Bool := c = ' ' || c = '\t'

def isInk (c : Char) : Bool := !Text.isSpace c

def isUnquoted (c : Char) : Bool := c ≠ '"'

def readOption? : Text → Option (Text × Text)
  | [] => none
  | c :: rest =>
    if isOptionStart c then some (c :: rest.takeWhile isOptionChar, rest.dropWhile isOptionChar)
    else none

/-- An equals sign with the blanks around it, or else blanks alone. -/
def readAssignment? (t : Text) : Option (Text × Text) :=
  match t.dropWhile isPad with
  | '=' :: rest =>
    some (t.takeWhile isPad ++ '=' :: rest.takeWhile isPad, rest.dropWhile isPad)
  | rest => if (t.takeWhile isPad).isEmpty then none else some (t.takeWhile isPad, rest)

/-- A quoted run with the ink that follows its closing quote, an open quote with all that follows
it, or else a run of ink. -/
def readArgument? : Text → Option (Text × Text)
  | [] => none
  | '"' :: rest =>
    match rest.dropWhile isUnquoted with
    | [] => some ('"' :: rest, [])
    | quote :: after =>
      some ('"' :: rest.takeWhile isUnquoted ++ quote :: after.takeWhile isInk,
        after.dropWhile isInk)
  | c :: rest =>
    if isInk c then some (c :: rest.takeWhile isInk, rest.dropWhile isInk) else none

/-- Whether a marker and the first character of an option stand at the start of the text. -/
def startsPair (t : Text) : Bool :=
  match Marker.read? t with
  | some (_, c :: _) => isOptionStart c
  | _ => false

/-- What binds an argument to its option, and the argument. -/
structure Binding where
  assignment : Text
  argument : Text
  deriving DecidableEq

def Binding.text (b : Binding) : Text := b.assignment ++ b.argument

structure Pair where
  marker : Marker
  option : Text
  binding : Option Binding
  deriving DecidableEq

namespace Pair

def text (p : Pair) : Text :=
  p.marker.text ++ p.option ++ (p.binding.map Binding.text).getD []

def argument? (p : Pair) : Option Text := p.binding.map Binding.argument

def assignment? (p : Pair) : Option Text := p.binding.map Binding.assignment

end Pair

/-- An assignment that stops at its equals sign takes any argument; after a blank the argument may
not start a pair. -/
def accepts (assignment rest : Text) : Bool :=
  assignment.getLast? = some '=' || !startsPair rest

def Binding.read? (t : Text) : Option (Binding × Text) :=
  match readAssignment? t with
  | none => none
  | some (assignment, rest) =>
    match readArgument? rest with
    | none => none
    | some (argument, rest') =>
      if accepts assignment rest then some (⟨assignment, argument⟩, rest') else none

namespace Pair

/-- The rest of a pair after its marker. An option whose argument is missing or refused stands
alone, and what follows its name is left unread. -/
def readAfter? (marker : Marker) (t : Text) : Option (Pair × Text) :=
  match readOption? t with
  | none => none
  | some (option, rest) =>
    match Binding.read? rest with
    | some (binding, rest') => some (⟨marker, option, some binding⟩, rest')
    | none => some (⟨marker, option, none⟩, rest)

/-- The pair at the start of the text; `bare` allows one without a marker. -/
def read? (bare : Bool) (t : Text) : Option (Pair × Text) :=
  match Marker.read? t with
  | some (marker, rest) => readAfter? marker rest
  | none => if bare then readAfter? .bare t else none

def ofText? (t : Text) : Option Pair :=
  match read? true t with
  | some (p, []) => some p
  | _ => none

end Pair

theorem eq_append_of_readOption? {t option rest : Text}
    (h : readOption? t = some (option, rest)) : t = option ++ rest := by
  cases t with
  | nil => simp [readOption?] at h
  | cons c r =>
    simp only [readOption?, Option.ite_none_right_eq_some, Option.some.injEq, Prod.mk.injEq] at h
    obtain ⟨_, rfl, rfl⟩ := h
    simp [List.takeWhile_append_dropWhile]

theorem ne_nil_of_readOption? {t option rest : Text}
    (h : readOption? t = some (option, rest)) : option ≠ [] := by
  cases t with
  | nil => simp [readOption?] at h
  | cons c r =>
    simp only [readOption?, Option.ite_none_right_eq_some, Option.some.injEq, Prod.mk.injEq] at h
    obtain ⟨_, rfl, _⟩ := h
    simp

theorem eq_append_of_readAssignment? {t assignment rest : Text}
    (h : readAssignment? t = some (assignment, rest)) : t = assignment ++ rest := by
  unfold readAssignment? at h
  have ht : t.takeWhile isPad ++ t.dropWhile isPad = t := List.takeWhile_append_dropWhile
  split at h
  · next r hr =>
    obtain ⟨rfl, rfl⟩ := Prod.mk.inj (Option.some.inj h)
    rw [List.append_assoc, List.cons_append, List.takeWhile_append_dropWhile, ← hr, ht]
  · simp only [Option.ite_none_left_eq_some, Option.some.injEq, Prod.mk.injEq] at h
    obtain ⟨_, rfl, rfl⟩ := h
    exact ht.symm

theorem eq_append_of_readArgument? {t argument rest : Text}
    (h : readArgument? t = some (argument, rest)) : t = argument ++ rest := by
  unfold readArgument? at h
  split at h
  · simp at h
  · next r =>
    have hr : r.takeWhile isUnquoted ++ r.dropWhile isUnquoted = r :=
      List.takeWhile_append_dropWhile
    split at h
    · obtain ⟨rfl, rfl⟩ := Prod.mk.inj (Option.some.inj h)
      simp
    · next q after hq =>
      obtain ⟨rfl, rfl⟩ := Prod.mk.inj (Option.some.inj h)
      rw [hq] at hr
      simp [List.takeWhile_append_dropWhile, hr]
  · next c r _ =>
    simp only [Option.ite_none_right_eq_some, Option.some.injEq, Prod.mk.injEq] at h
    obtain ⟨_, rfl, rfl⟩ := h
    simp [List.takeWhile_append_dropWhile]

theorem Binding.eq_append_of_read? {t rest : Text} {b : Binding}
    (h : Binding.read? t = some (b, rest)) : t = b.text ++ rest := by
  unfold Binding.read? at h
  split at h
  · simp at h
  · next assignment r ha =>
    split at h
    · simp at h
    · next argument r' hb =>
      simp only [Option.ite_none_right_eq_some, Option.some.injEq, Prod.mk.injEq] at h
      obtain ⟨_, rfl, rfl⟩ := h
      rw [eq_append_of_readAssignment? ha, eq_append_of_readArgument? hb, Binding.text,
        List.append_assoc]

namespace Pair

theorem eq_append_of_readAfter? {t rest : Text} {m : Marker} {p : Pair}
    (h : readAfter? m t = some (p, rest)) : m.text ++ t = p.text ++ rest ∧ p.option ≠ [] := by
  unfold readAfter? at h
  split at h
  · simp at h
  · next option r ho =>
    have ht := eq_append_of_readOption? ho
    have hne := ne_nil_of_readOption? ho
    split at h
    · next b r' hb =>
      obtain ⟨rfl, rfl⟩ := Prod.mk.inj (Option.some.inj h)
      exact ⟨by simp [ht, Binding.eq_append_of_read? hb, text], hne⟩
    · obtain ⟨rfl, rfl⟩ := Prod.mk.inj (Option.some.inj h)
      exact ⟨by simp [ht, text], hne⟩

theorem eq_append_of_read? {bare : Bool} {t rest : Text} {p : Pair}
    (h : read? bare t = some (p, rest)) : t = p.text ++ rest ∧ p.option ≠ [] := by
  unfold read? at h
  split at h
  · next m r hm =>
    rw [Marker.eq_append_of_read? hm]
    exact eq_append_of_readAfter? h
  · simp only [Option.ite_none_right_eq_some] at h
    simpa [Marker.text] using eq_append_of_readAfter? h.2

theorem text_ne_nil_of_read? {bare : Bool} {t rest : Text} {p : Pair}
    (h : read? bare t = some (p, rest)) : p.text ≠ [] := by
  simp [text, (eq_append_of_read? h).2]

end Pair
end Gatekeeper.Redaction
