import Gatekeeper.Logging.Delivery

/-!
# Filters and their history

The filters of loggers and handlers after a run of actions, read off the actions: a logger has one
for each installation on it, a handler one for each installation on a logger that it was on at the
time (`copies_filters_after`, `copies_filtersOf_after`).
-/

namespace Gatekeeper.Logging

open Redaction (Redactor)

def Action.target? : Action → Option Text
  | .install logger _ => some logger
  | _ => none

/-- Whether an action installs no other filter than this one. -/
def Action.Uses (redactor : Redactor) : Action → Prop
  | .install _ r => r = redactor
  | _ => True

namespace Tree

variable {tree : Tree} {redactor : Redactor} {actions : List Action}

def after (tree : Tree) (actions : List Action) : Tree :=
  actions.foldl (fun tree action => (tree.perform action).1) tree

def targets (actions : List Action) : List Text := actions.filterMap Action.target?

/-- The handlers that were on a logger when a filter was installed on it. -/
def covered (tree : Tree) : List Action → List Nat
  | [] => []
  | action :: actions =>
    (action.target?.map fun logger => (tree.get logger).handlers).getD [] ++
      (tree.perform action).1.covered actions

def Unfiltered (tree : Tree) : Prop := tree.installed = [] ∧ ∀ name, (tree.get name).filters = []

theorem unfiltered_empty : Tree.empty.Unfiltered := ⟨rfl, fun _ => rfl⟩

/-! ## One action -/

theorem get_add (tree : Tree) (name other : Text) :
    ∃ parent, (tree.add name).get other =
      ⟨parent, (tree.get other).handlers, (tree.get other).filters,
        (tree.get other).propagates⟩ := by
  unfold add
  split
  · exact ⟨(tree.get other).parent, rfl⟩
  · next hnew =>
    by_cases hother : other = name
    · subst hother
      have hnone : tree.loggers.get? other = none := by simp_all
      exact ⟨tree.nearestAbove other, by simp [get, hnone]⟩
    · cases hget : tree.loggers.get? other with
      | none => exact ⟨[], by simp [get, Table.get?_put_of_ne _ hother, hget]⟩
      | some l =>
        refine ⟨(l.adopt name other).parent, ?_⟩
        simp only [get, Table.get?_put_of_ne _ hother, Table.get?_map, hget, Option.map_some,
          Option.getD_some, Logger.adopt]
        split <;> rfl

@[simp] theorem filters_add (tree : Tree) (name other : Text) :
    ((tree.add name).get other).filters = (tree.get other).filters := by
  obtain ⟨parent, hget⟩ := tree.get_add name other
  rw [hget]

@[simp] theorem installed_add (tree : Tree) (name : Text) :
    (tree.add name).installed = tree.installed := by
  unfold add
  split <;> rfl

@[simp] theorem filtersOf_add (tree : Tree) (name : Text) (id : Nat) :
    (tree.add name).filtersOf id = tree.filtersOf id := by
  simp [filtersOf]

theorem get_change (tree : Tree) (name other : Text) (f : Logger → Logger) :
    (tree.change name f).get other =
      if other = name then f ((tree.add name).get name) else (tree.add name).get other := by
  by_cases hother : other = name
  · simp [change, get, hother]
  · simp [change, get, hother, Table.get?_put_of_ne _ hother]

theorem filters_change (tree : Tree) (name other : Text) {f : Logger → Logger}
    (hf : ∀ l, (f l).filters = l.filters) :
    ((tree.change name f).get other).filters = (tree.get other).filters := by
  rw [get_change]
  split
  · next hother => simp [hother, hf]
  · simp

theorem get_install (tree : Tree) (name other : Text) (redactor : Redactor) :
    (tree.install name redactor).get other =
      (tree.change name fun l => l.addFilter redactor).get other :=
  rfl

theorem filters_perform {action : Action} (h : action.Uses redactor) (name : Text) :
    ((tree.perform action).1.get name).filters =
      (tree.get name).filters ++ if action.target? = some name then [redactor] else [] := by
  cases action with
  | addHandler logger id =>
    have hkept : ((tree.addHandler logger id).get name).filters = (tree.get name).filters :=
      filters_change tree logger name fun l => rfl
    simp [perform, hkept, Action.target?]
  | setPropagates logger value =>
    have hkept : ((tree.setPropagates logger value).get name).filters = (tree.get name).filters :=
      filters_change tree logger name fun l => rfl
    simp [perform, hkept, Action.target?]
  | log logger severity record => simp [perform, Action.target?]
  | install logger r =>
    have hr : r = redactor := h
    simp only [perform, get_install, get_change, Action.target?, Option.some.injEq]
    by_cases hname : name = logger
    · simp [hname, hr, Logger.addFilter]
    · simp [hname, Ne.symm hname]

theorem installed_perform {action : Action} (h : action.Uses redactor) :
    (tree.perform action).1.installed = tree.installed ++
      ((action.target?.map fun logger => (tree.get logger).handlers).getD []).map fun id =>
        (id, redactor) := by
  cases action with
  | addHandler logger id => simp [perform, addHandler, change, Action.target?]
  | setPropagates logger value => simp [perform, setPropagates, change, Action.target?]
  | log logger severity record => simp [perform, Action.target?]
  | install logger r =>
    have hr : r = redactor := h
    simp [perform, install, Action.target?, hr]

/-! ## A run -/

theorem filters_after (h : ∀ a ∈ actions, a.Uses redactor) (name : Text) :
    ((tree.after actions).get name).filters = (tree.get name).filters ++
      ((targets actions).filter fun logger => logger = name).map fun _ => redactor := by
  induction actions generalizing tree with
  | nil => simp [after, targets]
  | cons action actions ih =>
    have hrest := @ih (tree.perform action).1 fun a ha => h a (by simp [ha])
    rw [filters_perform (h action (by simp)), List.append_assoc] at hrest
    cases htarget : action.target? with
    | none => simpa [after, targets, htarget] using hrest
    | some logger =>
      by_cases hlogger : logger = name
      · simpa [after, targets, htarget, hlogger] using hrest
      · simpa [after, targets, htarget, hlogger] using hrest

theorem installed_after (h : ∀ a ∈ actions, a.Uses redactor) :
    (tree.after actions).installed =
      tree.installed ++ (tree.covered actions).map fun id => (id, redactor) := by
  induction actions generalizing tree with
  | nil => simp [after, covered]
  | cons action actions ih =>
    have hrest := @ih (tree.perform action).1 fun a ha => h a (by simp [ha])
    rw [installed_perform (h action (by simp)), List.append_assoc, ← List.map_append] at hrest
    exact hrest

theorem filtersOf_after (h : ∀ a ∈ actions, a.Uses redactor) (htree : tree.Unfiltered) (id : Nat) :
    (tree.after actions).filtersOf id =
      ((tree.covered actions).filter fun i => i = id).map fun _ => redactor := by
  rw [filtersOf, installed_after h, htree.1, List.nil_append, List.filter_map, List.map_map]
  rfl

/-- Whether filters are copies of one redactor, of which there are some just if `marked` holds. -/
def Copies (redactor : Redactor) (marked : Bool) (filters : List Redactor) : Prop :=
  (∀ f ∈ filters, f = redactor) ∧ filters.isEmpty = !marked

theorem Copies.eq_replicate {marked : Bool} {filters : List Redactor}
    (h : Copies redactor marked filters) : filters = List.replicate filters.length redactor :=
  List.eq_replicate_iff.2 ⟨rfl, h.1⟩

theorem copies_filter_map {α : Type} [BEq α] [LawfulBEq α] [DecidableEq α] (redactor : Redactor)
    (l : List α) (a : α) :
    Copies redactor (l.contains a) ((l.filter fun b => b = a).map fun _ => redactor) := by
  constructor
  · intro f hf
    obtain ⟨_, _, rfl⟩ := List.mem_map.1 hf
    rfl
  · induction l with
    | nil => rfl
    | cons b l ih =>
      by_cases hb : b = a
      · simp [hb]
      · simpa [hb, Ne.symm hb] using ih

theorem copies_filters_after (h : ∀ a ∈ actions, a.Uses redactor) (htree : tree.Unfiltered)
    (name : Text) :
    Copies redactor ((targets actions).contains name) ((tree.after actions).get name).filters := by
  rw [filters_after h, htree.2, List.nil_append]
  exact copies_filter_map redactor (targets actions) name

theorem copies_filtersOf_after (h : ∀ a ∈ actions, a.Uses redactor) (htree : tree.Unfiltered)
    (id : Nat) :
    Copies redactor ((tree.covered actions).contains id) ((tree.after actions).filtersOf id) := by
  rw [filtersOf_after h htree]
  exact copies_filter_map redactor (tree.covered actions) id

end Tree
end Gatekeeper.Logging
