import Gatekeeper.Text.Blank

/-!
# Markers

The sign in front of an option. At any place the longest marker is read. Only the first pair of a
line may go without one.

Main statement: a marker that is read stands at the start of the text (`eq_append_of_read?`).
-/

namespace Gatekeeper.Redaction

/-- `-D`, `--J=-D`, or a run of two or more hyphens, `extra` of them beyond the two; `bare` stands
for no marker. -/
inductive Marker
  | bare
  | property
  | forwarded
  | hyphens (extra : Nat)
  deriving DecidableEq

def after? (lead : Text) (t : Text) : Option Text :=
  match lead, t with
  | [], t => some t
  | _ :: _, [] => none
  | l :: lead, c :: t => if l = c then after? lead t else none

theorem after?_eq_some_iff {lead t rest : Text} : after? lead t = some rest ↔ t = lead ++ rest := by
  induction lead generalizing t with
  | nil => simp [after?]
  | cons l lead ih =>
    cases t with
    | nil => simp [after?]
    | cons c t =>
      by_cases h : l = c
      · simp [after?, h, ih]
      · simp [after?, h, Ne.symm h]

def isHyphen (c : Char) : Bool := c = '-'

namespace Marker

def text : Marker → Text
  | .bare => []
  | .property => ['-', 'D']
  | .forwarded => ['-', '-', 'J', '=', '-', 'D']
  | .hyphens extra => List.replicate (extra + 2) '-'

/-- The longest marker at the start of the text, and what follows it. -/
def read? (t : Text) : Option (Marker × Text) :=
  match after? forwarded.text t with
  | some rest => some (.forwarded, rest)
  | none =>
    match after? property.text t with
    | some rest => some (.property, rest)
    | none =>
      match after? ['-', '-'] t with
      | some rest => some (.hyphens (rest.takeWhile isHyphen).length, rest.dropWhile isHyphen)
      | none => none

theorem takeWhile_isHyphen (t : Text) :
    t.takeWhile isHyphen = List.replicate (t.takeWhile isHyphen).length '-' := by
  apply List.eq_replicate_of_mem
  intro c hc
  simpa [isHyphen] using List.all_eq_true.1 (List.all_takeWhile (p := isHyphen) (l := t)) c hc

theorem eq_append_of_read? {t rest : Text} {m : Marker} (h : read? t = some (m, rest)) :
    t = m.text ++ rest := by
  unfold read? at h
  split at h
  · next r hr =>
    obtain ⟨rfl, rfl⟩ := Prod.mk.inj (Option.some.inj h)
    exact after?_eq_some_iff.1 hr
  · split at h
    · next r hr =>
      obtain ⟨rfl, rfl⟩ := Prod.mk.inj (Option.some.inj h)
      exact after?_eq_some_iff.1 hr
    · split at h
      · next r hr =>
        obtain ⟨rfl, rfl⟩ := Prod.mk.inj (Option.some.inj h)
        rw [after?_eq_some_iff.1 hr, text, Nat.add_comm, ← List.replicate_append_replicate,
          ← takeWhile_isHyphen, List.append_assoc, List.takeWhile_append_dropWhile]
        rfl
      · exact absurd h (by simp)

end Marker
end Gatekeeper.Redaction
