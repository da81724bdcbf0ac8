import Gatekeeper.Text.Basic

/-!
# Sets of names

A set of names is kept in ascending order of code points, each name once. Two sets with the same
names are therefore equal, whatever order the names came in.

Main statements: `NameSet.mem_insertAll` and `NameSet.eq_of_mem_iff`.
-/

namespace Gatekeeper.Screening

/-- Ascending order by code points; a text comes before its extensions. -/
def precedes : Text → Text → Bool
  | _, [] => false
  | [], _ :: _ => true
  | a :: s, b :: t => a.toNat < b.toNat || (a = b && precedes s t)

theorem precedes_irrefl (a : Text) : precedes a a = false := by
  induction a with
  | nil => rfl
  | cons c a ih => simp [precedes, ih]

theorem precedes_trans {a b c : Text} (hab : precedes a b = true) (hbc : precedes b c = true) :
    precedes a c = true := by
  induction a generalizing b c with
  | nil =>
    cases c with
    | nil => simp [precedes] at hbc
    | cons z c => rfl
  | cons x a ih =>
    cases b with
    | nil => simp [precedes] at hab
    | cons y b =>
      cases c with
      | nil => simp [precedes] at hbc
      | cons z c =>
        simp only [precedes, Bool.or_eq_true, Bool.and_eq_true, decide_eq_true_eq] at hab hbc ⊢
        rcases hab with hab | ⟨rfl, hab⟩
        · rcases hbc with hbc | ⟨rfl, _⟩
          · exact .inl (Nat.lt_trans hab hbc)
          · exact .inl hab
        · rcases hbc with hbc | ⟨rfl, hbc⟩
          · exact .inl hbc
          · exact .inr ⟨rfl, ih hab hbc⟩

theorem precedes_of_not_precedes {a b : Text} (h : precedes a b = false) (hne : a ≠ b) :
    precedes b a = true := by
  induction a generalizing b with
  | nil =>
    cases b with
    | nil => exact absurd rfl hne
    | cons y b => simp [precedes] at h
  | cons x a ih =>
    cases b with
    | nil => rfl
    | cons y b =>
      simp only [precedes, Bool.or_eq_false_iff, decide_eq_false_iff_not, Bool.or_eq_true,
        decide_eq_true_eq, Bool.and_eq_true] at h ⊢
      by_cases hxy : x = y
      · subst hxy
        exact .inr ⟨rfl, ih (by simpa using h.2) fun hab => hne (by rw [hab])⟩
      · have hval : x.toNat ≠ y.toNat := fun hval => hxy (Char.toNat_inj.1 hval)
        exact .inl (by omega)

/-- Puts a name at its place, unless it is there already. -/
def insertName (name : Text) : List Text → List Text
  | [] => [name]
  | first :: rest =>
    if precedes name first then name :: first :: rest
    else if name = first then first :: rest
    else first :: insertName name rest

theorem mem_insertName {name other : Text} {names : List Text} :
    other ∈ insertName name names ↔ other = name ∨ other ∈ names := by
  induction names with
  | nil => simp [insertName]
  | cons first rest ih =>
    unfold insertName
    split
    · simp
    · split
      · next h => simp [h]
      · simp [ih, or_left_comm]

abbrev Ascending (names : List Text) : Prop := names.Pairwise fun a b => precedes a b = true

theorem ascending_insertName {name : Text} {names : List Text} (h : Ascending names) :
    Ascending (insertName name names) := by
  induction names with
  | nil => simp [insertName, Ascending]
  | cons first rest ih =>
    obtain ⟨hfirst, hrest⟩ := List.pairwise_cons.1 h
    unfold insertName
    split
    · next hlt =>
      refine List.pairwise_cons.2 ⟨fun other hother => ?_, h⟩
      rcases List.mem_cons.1 hother with rfl | hother
      · exact hlt
      · exact precedes_trans hlt (hfirst other hother)
    · next hlt =>
      split
      · exact h
      · next hne =>
        refine List.pairwise_cons.2 ⟨fun other hother => ?_, ih hrest⟩
        rcases mem_insertName.1 hother with rfl | hother
        · exact precedes_of_not_precedes (by simpa using hlt) hne
        · exact hfirst other hother

/-- Ascending lists with the same names are equal. -/
theorem eq_of_ascending {a b : List Text} (ha : Ascending a) (hb : Ascending b)
    (h : ∀ name, name ∈ a ↔ name ∈ b) : a = b := by
  induction a generalizing b with
  | nil =>
    cases b with
    | nil => rfl
    | cons y b => simpa using (h y).2 (by simp)
  | cons x a ih =>
    cases b with
    | nil => simpa using (h x).1 (by simp)
    | cons y b =>
      obtain ⟨hx, hta⟩ := List.pairwise_cons.1 ha
      obtain ⟨hy, htb⟩ := List.pairwise_cons.1 hb
      have hne {z : Text} : precedes z z ≠ true := by simp [precedes_irrefl]
      have hxy : x = y := by
        rcases List.mem_cons.1 ((h x).1 (by simp)) with hxy | hxb
        · exact hxy
        · rcases List.mem_cons.1 ((h y).2 (by simp)) with hyx | hya
          · exact hyx.symm
          · exact absurd (precedes_trans (hx y hya) (hy x hxb)) hne
      subst hxy
      refine congrArg (x :: ·) (ih hta htb fun name => ?_)
      constructor
      · intro hname
        rcases List.mem_cons.1 ((h name).1 (by simp [hname])) with rfl | hmem
        · exact absurd (hx _ hname) hne
        · exact hmem
      · intro hname
        rcases List.mem_cons.1 ((h name).2 (by simp [hname])) with rfl | hmem
        · exact absurd (hy _ hname) hne
        · exact hmem

structure NameSet where
  names : List Text
  ascending : Ascending names

namespace NameSet

def empty : NameSet := ⟨[], List.Pairwise.nil⟩

def insert (name : Text) (s : NameSet) : NameSet :=
  ⟨insertName name s.names, ascending_insertName s.ascending⟩

def insertAll (names : List Text) (s : NameSet) : NameSet := names.foldr insert s

def ofList (names : List Text) : NameSet := insertAll names empty

def contains (s : NameSet) (name : Text) : Bool := s.names.contains name

def size (s : NameSet) : Nat := s.names.length

instance : Membership Text NameSet := ⟨fun s name => name ∈ s.names⟩

theorem mem_insert {name other : Text} {s : NameSet} :
    other ∈ s.insert name ↔ other = name ∨ other ∈ s :=
  mem_insertName

theorem mem_insertAll {names : List Text} {other : Text} {s : NameSet} :
    other ∈ s.insertAll names ↔ other ∈ names ∨ other ∈ s := by
  induction names with
  | nil => simp [insertAll]
  | cons name rest ih =>
    have hstep : insertAll (name :: rest) s = (insertAll rest s).insert name := rfl
    rw [hstep, mem_insert, ih, List.mem_cons, or_assoc]

theorem eq_of_mem_iff {s t : NameSet} (h : ∀ name, name ∈ s ↔ name ∈ t) : s = t := by
  obtain ⟨a, ha⟩ := s
  obtain ⟨b, hb⟩ := t
  obtain rfl : a = b := eq_of_ascending ha hb h
  rfl

theorem contains_eq_true_iff {s : NameSet} {name : Text} : s.contains name = true ↔ name ∈ s :=
  List.contains_iff_mem

end NameSet
end Gatekeeper.Screening
