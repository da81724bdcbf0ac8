import Gatekeeper.Text.Basic

/-!
# Tables

A table holds at most one value under each name that is looked up. A value put under a name replaces
the one that was there, and no other name is affected.
-/

namespace Gatekeeper

structure Table (α : Type) where
  entries : List (Text × α)

namespace Table

variable {α : Type}

def empty : Table α := ⟨[]⟩

def get? (t : Table α) (name : Text) : Option α := t.entries.lookup name

def erase (t : Table α) (name : Text) : Table α := ⟨t.entries.filter fun e => name != e.1⟩

def put (t : Table α) (name : Text) (value : α) : Table α :=
  ⟨(name, value) :: (t.erase name).entries⟩

/-- Puts a value, or takes the one that is there away. -/
def update (t : Table α) (name : Text) : Option α → Table α
  | some value => t.put name value
  | none => t.erase name

def map (f : Text → α → α) (t : Table α) : Table α := ⟨t.entries.map fun e => (e.1, f e.1 e.2)⟩

@[simp] theorem get?_empty (name : Text) : (empty : Table α).get? name = none := rfl

theorem lookup_filter_self (name : Text) (entries : List (Text × α)) :
    (entries.filter fun e => name != e.1).lookup name = none := by
  induction entries with
  | nil => rfl
  | cons e rest ih =>
    obtain ⟨key, value⟩ := e
    by_cases h : name = key
    · simp [List.filter, bne, h, ← ih]
    · have hb : (name == key) = false := by simp [h]
      simp [List.filter, List.lookup_cons, bne, hb]

theorem lookup_filter_of_ne {name other : Text} (h : other ≠ name)
    (entries : List (Text × α)) :
    (entries.filter fun e => name != e.1).lookup other = entries.lookup other := by
  induction entries with
  | nil => rfl
  | cons e rest ih =>
    obtain ⟨key, value⟩ := e
    by_cases he : name = key
    · have hb : (other == key) = false := by simp [← he, h]
      simp [List.filter, List.lookup_cons, bne, he, hb, ← ih]
    · have hb : (name == key) = false := by simp [he]
      simp only [List.filter, bne, hb, Bool.not_false, List.lookup_cons]
      cases other == key with
      | true => rfl
      | false => exact ih

@[simp] theorem get?_erase_self (t : Table α) (name : Text) : (t.erase name).get? name = none :=
  lookup_filter_self name t.entries

theorem get?_erase_of_ne (t : Table α) {name other : Text} (h : other ≠ name) :
    (t.erase name).get? other = t.get? other :=
  lookup_filter_of_ne h t.entries

@[simp] theorem get?_put_self (t : Table α) (name : Text) (value : α) :
    (t.put name value).get? name = some value := by
  simp [get?, put]

theorem get?_put_of_ne (t : Table α) {name other : Text} (h : other ≠ name) (value : α) :
    (t.put name value).get? other = t.get? other := by
  have hb : (other == name) = false := by simp [h]
  rw [← get?_erase_of_ne t h]
  simp [get?, put, List.lookup_cons, hb]

@[simp] theorem get?_update_self (t : Table α) (name : Text) (value : Option α) :
    (t.update name value).get? name = value := by
  cases value <;> simp [update]

@[simp] theorem get?_map (f : Text → α → α) (t : Table α) (name : Text) :
    (t.map f).get? name = (t.get? name).map (f name) := by
  obtain ⟨entries⟩ := t
  induction entries with
  | nil => rfl
  | cons e rest ih =>
    obtain ⟨key, value⟩ := e
    simp only [get?, map, List.map, List.lookup_cons] at ih ⊢
    by_cases h : name = key
    · simp [h]
    · have hb : (name == key) = false := by simp [h]
      simp only [hb, ih]

end Table
end Gatekeeper
