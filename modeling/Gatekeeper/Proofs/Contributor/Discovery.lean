import Gatekeeper.Contributor.Discovery
import Gatekeeper.Proofs.Contributor.Merging
import Mathlib.Data.List.Induction
import Mathlib.Data.List.Perm.Basic

/-!
# Finding contributors

Entries are loaded one after the other, and a class that was not seen before is constructed. Main
statement: if no entry fails, each class is found once, in the order of first occurrence, and
neither the classes nor the names that they sanction hang on the order of the entries; otherwise the
first entry that fails is named, and no entry behind it is loaded (`discovers_entries`).
-/

namespace Gatekeeper.Contributor

open Screening (NameSet)

/-- What the construction of each class comes to. The classes that the library brings along can
always be constructed. -/
structure Registry where
  instance? : Key → Except LoadFailure Contributor
  core : instance? .core = .ok Contributor.core
  numpy : instance? .numpy = .ok Contributor.numpy

/-- An entry by its name, with the class that it loads. -/
structure Registration where
  name : Text
  key? : Except LoadFailure Key

namespace Registration

/-- The classes that are loaded. -/
def keys (rs : List Registration) : List Key := rs.filterMap fun r => r.key?.toOption

/-- The classes that there are, in order of their first occurrence. -/
def classes (arrays : Bool) (rs : List Registration) : List Key :=
  (builtIn arrays ++ keys rs).eraseDups

end Registration

namespace Registry

def entry (k : Registry) (r : Registration) : Entry :=
  ⟨r.name, r.key?.map fun key => ⟨key, k.instance? key⟩⟩

/-- An entry fails if it cannot be loaded, or if its class was not seen and cannot be
constructed. -/
inductive Fails (k : Registry) (seen : List Key) (r : Registration) (reason : LoadFailure) : Prop
  | unloadable (h : r.key? = .error reason)
  | unconstructible {key : Key} (hkey : r.key? = .ok key) (hnew : key ∉ seen)
      (h : k.instance? key = .error reason)

/-- No entry fails behind those before it. -/
def NoneFails (k : Registry) (seen : List Key) : List Registration → Prop
  | [] => True
  | r :: rest => (∀ reason, ¬ k.Fails seen r reason) ∧
      k.NoneFails (seen ++ Registration.keys [r]) rest

variable (k : Registry) (arrays : Bool) (rs : List Registration)

/-- Each class is there once, by its instance. -/
structure Completes (contributors : List Contributor) : Prop where
  found : discover arrays (rs.map k.entry) = .ok contributors
  instances : contributors.map .ok = (Registration.classes arrays rs).map k.instance?
  once : (Registration.classes arrays rs).Nodup
  mem_classes : ∀ key, key ∈ Registration.classes arrays rs ↔
    key ∈ builtIn arrays ∨ ∃ r ∈ rs, r.key? = .ok key
  loaded : (searchAll arrays (rs.map k.entry)).loaded = rs.map k.entry
  constructed : (searchAll arrays (rs.map k.entry)).constructed = Registration.classes arrays rs
  unordered : ∀ others : List Registration, others.Perm rs →
    (∀ key, key ∈ Registration.classes arrays others ↔ key ∈ Registration.classes arrays rs) ∧
    ∃ contributors', discover arrays (others.map k.entry) = .ok contributors' ∧
      contributors'.Perm contributors ∧
      ((∀ c ∈ contributors, ∃ list, c.acceptList = .ok list) →
        ∃ names, (merge contributors).2 = .ok names ∧ (merge contributors').2 = .ok names)

/-- The entry behind the earlier ones ends the discovery. -/
structure Breaks (earlier : List Registration) (r : Registration) (reason : LoadFailure) :
    Prop where
  found : discover arrays (rs.map k.entry) = .error (.unloadableEntry r.name reason)
  named : (Fault.unloadableEntry r.name reason).message =
    some ("Unable to load sanctioned serializables contributor ".toList ++ r.name)
  loaded : (searchAll arrays (rs.map k.entry)).loaded = (earlier ++ [r]).map k.entry

/-- How contributors are discovered through entries. -/
structure Discovers : Prop where
  completes : k.NoneFails (builtIn arrays) rs →
    ∃ contributors, k.Completes arrays rs contributors
  breaks : ¬ k.NoneFails (builtIn arrays) rs →
    ∃ (earlier : List Registration) (r : Registration) (later : List Registration)
      (reason : LoadFailure), rs = earlier ++ r :: later ∧ k.NoneFails (builtIn arrays) earlier ∧
        k.Fails (builtIn arrays ++ Registration.keys earlier) r reason ∧
        k.Breaks arrays rs earlier r reason
  /-- A discovery is what a search finds, which also keeps account of what it did. -/
  traced : (searchAll arrays (rs.map k.entry)).found = discover arrays (rs.map k.entry)

end Registry

variable {seen : List Key} {key : Key} {rs : List Registration} {r : Registration}
  {reason : LoadFailure} {k : Registry}

/-! ## First occurrences -/

theorem nodup_eraseDups (keys : List Key) : keys.eraseDups.Nodup := by
  induction keys using List.reverseRecOn with
  | nil => simp
  | append_singleton keys key ih =>
    rw [List.eraseDups_append]
    by_cases h : key ∈ keys
    · simpa [List.removeAll, h] using ih
    · have hlast : ([key].removeAll keys).eraseDups = [key] := by
        simp [List.removeAll, h, List.eraseDups_cons]
      have hnew : ∀ old ∈ keys.eraseDups, old ≠ key := fun old hold =>
        ne_of_mem_of_not_mem (List.mem_eraseDups.1 hold) h
      rw [hlast, List.nodup_append]
      exact ⟨ih, by simp, by simpa using hnew⟩

/-- The first occurrences among those that were not seen. -/
def fresh (seen keys : List Key) : List Key := (keys.removeAll seen).eraseDups

theorem fresh_cons_of_mem (h : key ∈ seen) (keys : List Key) :
    fresh seen (key :: keys) = fresh seen keys := by
  simp [fresh, List.removeAll, h]

theorem fresh_cons_of_not_mem (h : key ∉ seen) (keys : List Key) :
    fresh seen (key :: keys) = key :: fresh (key :: seen) keys := by
  simp [fresh, List.removeAll, h, List.eraseDups_cons, List.filter_filter, beq_eq_decide]

theorem classes_eq (arrays : Bool) (rs : List Registration) :
    Registration.classes arrays rs =
      builtIn arrays ++ fresh (builtIn arrays) (Registration.keys rs) := by
  have hbuiltIn : (builtIn arrays).eraseDups = builtIn arrays := by cases arrays <;> rfl
  rw [Registration.classes, List.eraseDups_append, hbuiltIn, fresh]

theorem mem_keys : key ∈ Registration.keys rs ↔ ∃ r ∈ rs, r.key? = .ok key := by
  rw [Registration.keys, List.mem_filterMap]
  refine exists_congr fun r => and_congr_right fun _ => ?_
  cases r.key? <;> simp [Except.toOption]

theorem mem_classes (arrays : Bool) : key ∈ Registration.classes arrays rs ↔
    key ∈ builtIn arrays ∨ ∃ r ∈ rs, r.key? = .ok key := by
  rw [Registration.classes, List.mem_eraseDups, List.mem_append, mem_keys]

theorem nodup_classes (arrays : Bool) (rs : List Registration) :
    (Registration.classes arrays rs).Nodup :=
  nodup_eraseDups _

theorem keys_cons (h : r.key? = .ok key) (rs : List Registration) :
    Registration.keys (r :: rs) = key :: Registration.keys rs := by
  simp [Registration.keys, h, Except.toOption]

/-! ## Entries that fail, and entries that do not -/

namespace Registry

def Constructs (k : Registry) (keys : List Key) : Prop :=
  ∀ key ∈ keys, ∃ c, k.instance? key = .ok c

/-- The entry loads a class that can be constructed. -/
def Sound (k : Registry) (r : Registration) : Prop :=
  ∃ key, r.key? = .ok key ∧ ∃ c, k.instance? key = .ok c

theorem Sound.not_fails (h : k.Sound r) : ¬ k.Fails seen r reason := by
  obtain ⟨key, hkey, c, hc⟩ := h
  rintro (hload | ⟨hkey', -, hreason⟩)
  · cases hkey.symm.trans hload
  · cases hkey.symm.trans hkey'
    cases hc.symm.trans hreason

theorem sound_or_fails (hseen : k.Constructs seen) (r : Registration) :
    k.Sound r ∨ ∃ reason, k.Fails seen r reason := by
  cases hkey : r.key? with
  | error reason => exact Or.inr ⟨reason, .unloadable hkey⟩
  | ok key =>
    cases hinstance : k.instance? key with
    | ok c => exact Or.inl ⟨key, hkey, c, hinstance⟩
    | error reason =>
      refine Or.inr ⟨reason, .unconstructible hkey (fun hold => ?_) hinstance⟩
      obtain ⟨c, hc⟩ := hseen key hold
      cases hinstance.symm.trans hc

/-- What was seen before can be constructed, and stays so behind a sound entry. -/
theorem Constructs.append (hseen : k.Constructs seen) (h : k.Sound r) :
    k.Constructs (seen ++ Registration.keys [r]) := by
  obtain ⟨key, hkey, hc⟩ := h
  rw [keys_cons hkey, Constructs, List.forall_mem_append]
  exact ⟨hseen, by simpa [Registration.keys] using hc⟩

theorem constructs_builtIn (k : Registry) (arrays : Bool) : k.Constructs (builtIn arrays) := by
  cases arrays <;> simp [Constructs, builtIn, k.core, k.numpy]

theorem noneFails_iff (hseen : k.Constructs seen) :
    k.NoneFails seen rs ↔ ∀ r ∈ rs, k.Sound r := by
  induction rs generalizing seen with
  | nil => simp [NoneFails]
  | cons r rest ih =>
    rw [NoneFails, List.forall_mem_cons]
    constructor
    · rintro ⟨hfirst, hrest⟩
      have hsound : k.Sound r :=
        (sound_or_fails hseen r).resolve_right fun ⟨reason, hfails⟩ => hfirst reason hfails
      exact ⟨hsound, (ih (hseen.append hsound)).1 hrest⟩
    · rintro ⟨hsound, hrest⟩
      exact ⟨fun _ => hsound.not_fails, (ih (hseen.append hsound)).2 hrest⟩

theorem Fails.congr {seen' : List Key} (h : k.Fails seen r reason)
    (hsame : ∀ key, key ∈ seen ↔ key ∈ seen') : k.Fails seen' r reason := by
  cases h with
  | unloadable h => exact .unloadable h
  | unconstructible hkey hnew h => exact .unconstructible hkey (mt (hsame _).2 hnew) h

/-- The first entry that is not sound fails behind the others. -/
theorem exists_fails (hseen : k.Constructs seen)
    (h : ¬ k.NoneFails seen rs) :
    ∃ (earlier : List Registration) (r : Registration) (later : List Registration)
      (reason : LoadFailure), rs = earlier ++ r :: later ∧ k.NoneFails seen earlier ∧
        k.Fails (seen ++ Registration.keys earlier) r reason := by
  induction rs generalizing seen with
  | nil => exact absurd trivial h
  | cons r rest ih =>
    rcases sound_or_fails hseen r with hsound | ⟨reason, hfails⟩
    · have hrest : ¬ k.NoneFails (seen ++ Registration.keys [r]) rest :=
        fun hrest => h ⟨fun _ => hsound.not_fails, hrest⟩
      obtain ⟨earlier, s, later, reason, rfl, hearlier, hfails⟩ := ih (hseen.append hsound) hrest
      refine ⟨r :: earlier, s, later, reason, rfl, ⟨fun _ => hsound.not_fails, hearlier⟩, ?_⟩
      rwa [List.append_assoc, Registration.keys, Registration.keys, ← List.filterMap_append]
        at hfails
    · exact ⟨[], r, rest, reason, rfl, trivial, by simpa [Registration.keys] using hfails⟩

end Registry

/-! ## Runs of a search -/

section Run

variable {entries : List Entry} {contributor : Contributor}

theorem search_of_seen (hkey : r.key? = .ok key) (hseen : key ∈ seen) :
    search seen (k.entry r :: entries) =
      ⟨k.entry r :: (search seen entries).loaded, (search seen entries).constructed,
        (search seen entries).found⟩ := by
  simp [search, Registry.entry, hkey, hseen, Except.map]

theorem search_of_new (hkey : r.key? = .ok key) (hnew : key ∉ seen)
    (hinstance : k.instance? key = .ok contributor) :
    search seen (k.entry r :: entries) =
      ⟨k.entry r :: (search (key :: seen) entries).loaded,
        key :: (search (key :: seen) entries).constructed,
        (search (key :: seen) entries).found.map (contributor :: ·)⟩ := by
  simp [search, Registry.entry, hkey, hnew, hinstance, Except.map]

theorem search_of_sound (h : ∀ r ∈ rs, k.Sound r) (seen : List Key) :
    ∃ contributors, search seen (rs.map k.entry) =
        ⟨rs.map k.entry, fresh seen (Registration.keys rs), .ok contributors⟩ ∧
      contributors.map .ok = (fresh seen (Registration.keys rs)).map k.instance? := by
  induction rs generalizing seen with
  | nil => exact ⟨[], rfl, rfl⟩
  | cons r rest ih =>
    rw [List.forall_mem_cons] at h
    obtain ⟨⟨key, hkey, c, hc⟩, hrest⟩ := h
    rw [List.map_cons, keys_cons hkey]
    by_cases hseen : key ∈ seen
    · obtain ⟨contributors, hsearch, hinstances⟩ := ih hrest seen
      refine ⟨contributors, ?_, by rw [fresh_cons_of_mem hseen, hinstances]⟩
      rw [search_of_seen hkey hseen, hsearch, fresh_cons_of_mem hseen]
    · obtain ⟨contributors, hsearch, hinstances⟩ := ih hrest (key :: seen)
      refine ⟨c :: contributors, ?_, ?_⟩
      · rw [search_of_new hkey hseen hc, hsearch, fresh_cons_of_not_mem hseen]
        rfl
      · rw [fresh_cons_of_not_mem hseen, List.map_cons, List.map_cons, hinstances, hc]

theorem search_of_fails {earlier : List Registration} (h : ∀ s ∈ earlier, k.Sound s)
    (hfails : k.Fails (seen ++ Registration.keys earlier) r reason) (later : List Registration) :
    (search seen ((earlier ++ r :: later).map k.entry)).found =
        .error (.unloadableEntry r.name reason) ∧
      (search seen ((earlier ++ r :: later).map k.entry)).loaded =
        (earlier ++ [r]).map k.entry := by
  induction earlier generalizing seen with
  | nil =>
    simp only [List.nil_append, List.map_cons]
    cases hfails with
    | unloadable hload => simp [search, Registry.entry, hload, Except.map]
    | unconstructible hkey hnew hinstance =>
      have hunseen : _ ∉ seen := fun hold => hnew (List.mem_append_left _ hold)
      simp [search, Registry.entry, hkey, hunseen, hinstance, Except.map]
  | cons s earlier ih =>
    rw [List.forall_mem_cons] at h
    obtain ⟨⟨key, hkey, c, hc⟩, hearlier⟩ := h
    rw [keys_cons hkey] at hfails
    simp only [List.cons_append, List.map_cons]
    by_cases hseen : key ∈ seen
    · have hsame : k.Fails (seen ++ Registration.keys earlier) r reason :=
        hfails.congr fun other => by grind
      obtain ⟨hfound, hloaded⟩ := ih hearlier hsame
      rw [search_of_seen hkey hseen, hfound, hloaded]
      exact ⟨rfl, rfl⟩
    · have hsame : k.Fails (key :: seen ++ Registration.keys earlier) r reason :=
        hfails.congr fun other => by grind
      obtain ⟨hfound, hloaded⟩ := ih hearlier hsame
      rw [search_of_new hkey hseen hc, hfound, hloaded]
      exact ⟨rfl, rfl⟩

end Run

/-! ## The whole discovery -/

namespace Registry

theorem searchAll_of_sound (h : ∀ r ∈ rs, k.Sound r) (arrays : Bool) :
    ∃ contributors, searchAll arrays (rs.map k.entry) =
        ⟨rs.map k.entry, Registration.classes arrays rs, .ok contributors⟩ ∧
      contributors.map .ok = (Registration.classes arrays rs).map k.instance? := by
  obtain ⟨contributors, hsearch, hinstances⟩ := search_of_sound h (builtIn arrays)
  refine ⟨(if arrays then [Contributor.core, Contributor.numpy] else [Contributor.core]) ++
    contributors, ?_, ?_⟩
  · rw [searchAll, hsearch, classes_eq]
    rfl
  · rw [classes_eq, List.map_append, List.map_append, hinstances]
    cases arrays <;> simp [builtIn, k.core, k.numpy]

theorem discover_of_sound (h : ∀ r ∈ rs, k.Sound r) (arrays : Bool) :
    ∃ contributors, discover arrays (rs.map k.entry) = .ok contributors ∧
      contributors.map .ok = (Registration.classes arrays rs).map k.instance? := by
  obtain ⟨contributors, hsearch, hinstances⟩ := searchAll_of_sound h arrays
  exact ⟨contributors, congrArg Search.found hsearch, hinstances⟩

theorem classes_perm {others : List Registration} (h : others.Perm rs) (arrays : Bool) :
    (Registration.classes arrays others).Perm (Registration.classes arrays rs) := by
  rw [List.perm_ext_iff_of_nodup (nodup_classes arrays others) (nodup_classes arrays rs)]
  intro key
  rw [mem_classes, mem_classes]
  simp only [h.mem_iff]

theorem completes_of_sound (h : ∀ r ∈ rs, k.Sound r) (arrays : Bool) :
    ∃ contributors, k.Completes arrays rs contributors := by
  obtain ⟨contributors, hsearch, hinstances⟩ := searchAll_of_sound h arrays
  refine ⟨contributors, congrArg Search.found hsearch, hinstances, nodup_classes arrays rs,
    fun key => mem_classes arrays, by rw [hsearch], by rw [hsearch], ?_⟩
  intro others hperm
  obtain ⟨contributors', hfound, hinstances'⟩ :=
    discover_of_sound (fun r hr => h r (hperm.mem_iff.1 hr)) arrays
  have hclasses := classes_perm hperm arrays
  have hcontributors : contributors'.Perm contributors := by
    have hmap : (contributors'.map Except.ok).Perm
        (contributors.map (Except.ok : Contributor → Except LoadFailure Contributor)) := by
      rw [hinstances, hinstances']
      exact hclasses.map _
    exact (List.map_perm_map_iff fun _ _ => Except.ok.inj).1 hmap
  exact ⟨fun key => hclasses.mem_iff, contributors', hfound, hcontributors,
    merge_congr fun c => hcontributors.mem_iff⟩

theorem breaks_of_fails {earlier : List Registration} (h : ∀ s ∈ earlier, k.Sound s)
    {arrays : Bool} (hfails : k.Fails (builtIn arrays ++ Registration.keys earlier) r reason)
    (later : List Registration) :
    k.Breaks arrays (earlier ++ r :: later) earlier r reason := by
  obtain ⟨hfound, hloaded⟩ := search_of_fails h hfails later
  refine ⟨?_, rfl, hloaded⟩
  rw [discover, searchAll, hfound]
  rfl

/-- Whatever entries are registered, and whether or not the array library is there: the discovery
finds each class once, or ends at the first entry that fails. -/
theorem discovers_entries (k : Registry) (arrays : Bool) (rs : List Registration) :
    k.Discovers arrays rs where
  completes := fun h =>
    completes_of_sound ((noneFails_iff (k.constructs_builtIn arrays)).1 h) arrays
  breaks := by
    intro h
    have hbuiltIn := k.constructs_builtIn arrays
    obtain ⟨earlier, r, later, reason, rfl, hearlier, hfails⟩ := exists_fails hbuiltIn h
    exact ⟨earlier, r, later, reason, rfl, hearlier, hfails,
      breaks_of_fails ((noneFails_iff hbuiltIn).1 hearlier) hfails later⟩
  traced := rfl

end Registry

end Gatekeeper.Contributor
