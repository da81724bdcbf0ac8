import Gatekeeper.Guard.Reader
import Mathlib.Tactic.ByContra

/-!
# What readers are refused

A reference is refused to a reader whose own screen rejects it, and, where the screen of the process
is everywhere, to every reader if that one rejects it. Main statement: a class is restored unless it
is refused, and a load ends at the first reference that is (`Process.mediates`). The screen of the
process is everywhere as soon as there is a hook.
-/

namespace Gatekeeper.Guard

open Screening (Screen)

variable {p : Process} {catalog : Catalog} {screen : ReaderScreen} {n : Naming} {r : Reference}

def Rejects (screen : Option Screen) (name : Text) : Prop :=
  ∃ t ∈ screen, t.verdict (.ofName name) = .rejected

def Process.Refuses (p : Process) (everywhere : Prop) (screen : ReaderScreen)
    (r : Reference) : Prop :=
  Rejects screen.screen? r.dotted ∨ everywhere ∧ Rejects p.state.screen r.dotted

/-- How a reader reads the names of a whole stream, whose protocol it finds at its start. -/
def Reader.namingOf (reader : Reader) (payload : Payload) : Naming :=
  ⟨payload.shownProtocol, reader.formerNames⟩

/-- What a reader does where `refused` tells which references it is refused. A load that ends at a
reference has restored all that stands before it, and leaves what stands behind it unread. -/
structure Mediates (p : Process) (catalog : Catalog) (reader : Reader)
    (refused : Reference → Prop) : Prop where
  rejects : ∀ r, (reader.find p catalog r).2 = .error (.classRejected r.dotted) ↔ refused r
  resolves : ∀ r, ¬ refused r → (reader.find p catalog r).2 = catalog.resolve reader.naming r
  stops : ∀ (payload : Payload) before r rest, reader.unread = payload.instructions →
    payload.references = before ++ r :: rest →
    (∀ b ∈ before, ¬ refused b ∧
      ∃ name, catalog.resolve (reader.namingOf payload) b = .ok name) →
    refused r →
      (reader.load p catalog).reported.2 = .error (.classRejected r.dotted) ∧
        (reader.load p catalog).reported.1 =
          (p.resolveAll catalog reader.screen (reader.namingOf payload) before).1 ++
            (p.resolve catalog reader.screen (reader.namingOf payload) r).1 ∧
        (reader.load p catalog).unread = .append :: (Payload.memberInstructions rest ++ [.stop])
  loads : ∀ payload : Payload, reader.unread = payload.instructions →
    (∀ r ∈ payload.references, ¬ refused r) →
      (reader.load p catalog).reported.2 =
        payload.references.mapM (catalog.resolve (reader.namingOf payload))

theorem Mediates.congr {reader : Reader} {refused refused' : Reference → Prop}
    (h : Mediates p catalog reader refused) (hiff : ∀ r, refused r ↔ refused' r) :
    Mediates p catalog reader refused' := by
  have heq : refused = refused' := funext fun r => propext (hiff r)
  rwa [← heq]

/-! ## Asking screens -/

theorem inspect_of_rejects {held : Option Screen} {name : Text} (h : Rejects held name) :
    (inspect held name).2 = .error (.classRejected name) := by
  obtain ⟨t, ht, hrejected⟩ := h
  obtain rfl : held = some t := ht
  simp [inspect, hrejected]

theorem inspect_of_not_rejects {held : Option Screen} {name : Text} (h : ¬ Rejects held name) :
    (inspect held name).2 = .ok () := by
  cases held with
  | none => rfl
  | some t =>
    have hverdict : ¬ t.verdict (.ofName name) = .rejected := fun ht => h ⟨t, rfl, ht⟩
    simp [inspect, hverdict]

namespace Process

/-- Every hook asks the same screen, so the first of them decides. -/
theorem inspectByHooks_of_rejects {name : Text} {count : Nat} (hcount : 0 < count)
    (h : Rejects p.state.screen name) :
    (p.inspectByHooks name count).2 = .error (.classRejected name) := by
  obtain ⟨count, rfl⟩ := Nat.exists_eq_add_one_of_ne_zero (Nat.ne_of_gt hcount)
  exact Reported.andThen_of_error (inspect_of_rejects h)

theorem inspectByHooks_of_not_rejects {name : Text} {count : Nat}
    (h : ¬ (0 < count ∧ Rejects p.state.screen name)) :
    (p.inspectByHooks name count).2 = .ok () := by
  induction count with
  | zero => rfl
  | succ count ih =>
    have hscreen : ¬ Rejects p.state.screen name := fun hr => h ⟨Nat.succ_pos _, hr⟩
    rw [inspectByHooks, Reported.andThen_of_ok (inspect_of_not_rejects hscreen)]
    exact ih fun hc => hscreen hc.2

end Process

theorem Catalog.resolve_ne_classRejected (c : Catalog) (n : Naming) (r : Reference)
    (name : Text) : c.resolve n r ≠ .error (.classRejected name) := by
  simp only [Catalog.resolve]
  split
  · simp
  · split
    · simp
    · split <;> simp

/-! ## Restoring one class -/

namespace Process

theorem resolve_of_refuses (h : p.Refuses (0 < p.hooks) screen r) :
    (p.resolve catalog screen n r).2 = .error (.classRejected r.dotted) := by
  by_cases hown : Rejects screen.screen? r.dotted
  · exact Reported.andThen_of_error (inspect_of_rejects hown)
  · obtain ⟨hhooks, hscreen⟩ := h.resolve_left hown
    rw [resolve, Reported.andThen_of_ok (inspect_of_not_rejects hown)]
    exact Reported.andThen_of_error (inspectByHooks_of_rejects hhooks hscreen)

theorem resolve_of_not_refuses (h : ¬ p.Refuses (0 < p.hooks) screen r) :
    (p.resolve catalog screen n r).2 = catalog.resolve n r := by
  have hown : ¬ Rejects screen.screen? r.dotted := fun hr => h (Or.inl hr)
  have hscreen : ¬ (0 < p.hooks ∧ Rejects p.state.screen r.dotted) := fun hr => h (Or.inr hr)
  rw [resolve, Reported.andThen_of_ok (inspect_of_not_rejects hown),
    Reported.andThen_of_ok (inspectByHooks_of_not_rejects hscreen)]
  rfl

theorem resolve_eq_classRejected_iff :
    (p.resolve catalog screen n r).2 = .error (.classRejected r.dotted) ↔
      p.Refuses (0 < p.hooks) screen r := by
  refine ⟨fun h => ?_, resolve_of_refuses⟩
  by_contra hrefused
  rw [resolve_of_not_refuses hrefused] at h
  exact catalog.resolve_ne_classRejected n r r.dotted h

/-! ## Loading a list -/

theorem resolveAll_eq_mapM {references : List Reference}
    (h : ∀ r ∈ references, ¬ p.Refuses (0 < p.hooks) screen r) :
    (p.resolveAll catalog screen n references).2 = references.mapM (catalog.resolve n) := by
  induction references with
  | nil => rfl
  | cons r rest ih =>
    have hr : (p.resolve catalog screen n r).2 = catalog.resolve n r :=
      resolve_of_not_refuses (h r (by simp))
    have hrest := ih fun b hb => h b (by simp [hb])
    rw [resolveAll, List.mapM_cons]
    cases hname : catalog.resolve n r with
    | error fault => exact Reported.andThen_of_error (hr.trans hname)
    | ok name =>
      rw [Reported.andThen_of_ok (hr.trans hname)]
      cases hnames : rest.mapM (catalog.resolve n) with
      | error fault => exact Reported.andThen_of_error (hrest.trans hnames)
      | ok names => exact Reported.andThen_of_ok (hrest.trans hnames)

/-- References that can be restored are, one by one, in front of whatever follows them. -/
theorem follow_memberInstructions_append {before : List Reference}
    (h : ∀ b ∈ before, ∃ name, (p.resolve catalog screen n b).2 = .ok name)
    (names : List Text) (tail : List Instruction) :
    ∃ more, p.follow catalog screen n [.list names]
        (Payload.memberInstructions before ++ tail) =
      (p.follow catalog screen n [.list (names ++ more)] tail).after
        (p.resolveAll catalog screen n before).1 := by
  induction before generalizing names with
  | nil => exact ⟨[], by simp [Payload.memberInstructions, Loaded.after, resolveAll,
      Reported.success]⟩
  | cons b before ih =>
    obtain ⟨name, hname⟩ := h b (by simp)
    obtain ⟨more, hfollow⟩ := ih (fun d hd => h d (by simp [hd])) (names ++ [name])
    rcases hb : p.resolve catalog screen n b with ⟨first, result⟩
    obtain rfl : result = .ok name := by simpa [hb] using hname
    refine ⟨name :: more, ?_⟩
    have hstep : p.follow catalog screen n [.list names]
        (Payload.memberInstructions (b :: before) ++ tail) =
          (p.follow catalog screen n [.list (names ++ [name])]
            (Payload.memberInstructions before ++ tail)).after first := by
      simp [Payload.memberInstructions, follow, hb]
    have hnotices : (p.resolveAll catalog screen n (b :: before)).1 =
        first ++ (p.resolveAll catalog screen n before).1 := by
      rcases hall : p.resolveAll catalog screen n before with ⟨notices, fault | members⟩ <;>
        simp [resolveAll, hb, hall, Reported.andThen, Reported.success]
    rw [hstep, hfollow, hnotices]
    simp [Loaded.after]

theorem load_eq_follow (p : Process) (catalog : Catalog) {reader : Reader} {payload : Payload}
    (h : reader.unread = payload.instructions) :
    reader.load p catalog = p.follow catalog reader.screen (reader.namingOf payload) [.list []]
      (Payload.memberInstructions payload.references ++ [.stop]) := by
  rw [Reader.load, h, Payload.instructions, Reader.namingOf, Payload.shownProtocol]
  split <;> simp [follow]

/-- Every reader is refused what its own screen rejects, and what the screen of the process rejects
once there is a hook. -/
theorem mediates (p : Process) (catalog : Catalog) (reader : Reader) :
    Mediates p catalog reader (p.Refuses (0 < p.hooks) reader.screen) where
  rejects := fun r => resolve_eq_classRejected_iff
  resolves := fun r hr => resolve_of_not_refuses hr
  stops := by
    intro payload before r rest hunread hreferences hbefore hr
    have hresolved : ∀ b ∈ before, ∃ name, (p.resolve catalog reader.screen
        (reader.namingOf payload) b).2 = .ok name := by
      intro b hb
      obtain ⟨hfree, name, hname⟩ := hbefore b hb
      exact ⟨name, (resolve_of_not_refuses hfree).trans hname⟩
    obtain ⟨more, hfollow⟩ := follow_memberInstructions_append hresolved []
      (Payload.memberInstructions (r :: rest) ++ [.stop])
    have hload := load_eq_follow p catalog hunread
    rw [hreferences, Payload.memberInstructions, List.flatMap_append, List.append_assoc,
      ← Payload.memberInstructions, ← Payload.memberInstructions, hfollow] at hload
    have hfault : (p.resolve catalog reader.screen
        (reader.namingOf payload) r).2 = .error (.classRejected r.dotted) :=
      resolve_of_refuses hr
    rcases hresolve : p.resolve catalog reader.screen (reader.namingOf payload) r with
      ⟨last, result⟩
    obtain rfl : result = .error (.classRejected r.dotted) := by simpa [hresolve] using hfault
    rw [hload]
    simp [Payload.memberInstructions, follow, hresolve, Loaded.after]
  loads := by
    intro payload hunread hfree
    rw [reader.load_instructions p catalog payload hunread]
    exact resolveAll_eq_mapM hfree

end Process

end Gatekeeper.Guard
