import Gatekeeper.Contributor.Basic

/-!
# Merging accept lists

A merge asks the contributors for their lists, one after the other, and goes no further than the
first that has none to give. Main statement: it gives the union of the lists, whatever their order
and however often a contributor is repeated, or else the fault of that first one; the notices tell
of the lists that were read until then (`merges_all`).
-/

namespace Gatekeeper.Contributor

open Screening (NameSet)

/-- A contributor with the list that it gives. -/
structure Reading where
  contributor : Contributor
  list : List Text
  given : contributor.acceptList = .ok list

variable {contributors others : List Contributor} {names merged : NameSet}

def Reading.notice (r : Reading) : Notice := .namesSanctioned r.contributor.name r.list.length

/-- The first contributor without a list is named by the fault if the operating system is the
reason; any other reason is passed on. Nobody is asked behind it. -/
structure EndsWith (contributors : List Contributor) (readings : List Reading) (c : Contributor)
    (reason : ReadFailure) : Prop where
  merged : merge contributors = (readings.map Reading.notice, .error (readFault c.name reason))
  asked : (inquire .empty contributors).asked = readings.map Reading.contributor ++ [c]
  named : ∀ why, reason = .system why →
    readFault c.name reason = .unreadableContributor c.name why ∧
      (readFault c.name reason).message =
        some ("Unable to load sanctioned serializables from ".toList ++ c.name)
  passed : (∀ why, reason ≠ .system why) → readFault c.name reason = .acceptList reason

/-- The names of all lists, one notice for each list, and no regard to the order of the
contributors or to their repetition. -/
structure Unites (contributors : List Contributor) (readings : List Reading) (names : NameSet) :
    Prop where
  merged : merge contributors = (readings.map Reading.notice, .ok names)
  asked : (inquire .empty contributors).asked = contributors
  union : ∀ name, name ∈ names ↔ ∃ r ∈ readings, name ∈ r.list
  unordered : ∀ others : List Contributor, (∀ c, c ∈ others ↔ c ∈ contributors) →
    (merge others).2 = .ok names

/-- How the contributors in a list are merged. -/
structure Merges (contributors : List Contributor) : Prop where
  united : (∀ c ∈ contributors, ∃ list, c.acceptList = .ok list) →
    ∃ (readings : List Reading) (names : NameSet),
      contributors = readings.map Reading.contributor ∧ Unites contributors readings names
  ended : (∃ c ∈ contributors, ∃ reason, c.acceptList = .error reason) →
    ∃ (readings : List Reading) (c : Contributor) (later : List Contributor)
      (reason : ReadFailure), contributors = readings.map Reading.contributor ++ c :: later ∧
        c.acceptList = .error reason ∧ EndsWith contributors readings c reason
  informs : ∀ notice ∈ (merge contributors).1, notice.level = .info
  /-- A merge is what an inquiry reports, which also keeps account of whom it asked. -/
  traced : (inquire .empty contributors).reported = merge contributors

/-! ## Lists that are read -/

theorem inquire_append (names : NameSet) (readings : List Reading) (rest : List Contributor) :
    ∃ names', inquire names (readings.map Reading.contributor ++ rest) =
      ⟨readings.map Reading.contributor ++ (inquire names' rest).asked,
        readings.map Reading.notice ++ (inquire names' rest).reported.1,
        (inquire names' rest).reported.2⟩ := by
  induction readings generalizing names with
  | nil => exact ⟨names, rfl⟩
  | cons r readings ih =>
    obtain ⟨names', hrest⟩ := ih (names.insertAll r.list)
    refine ⟨names', ?_⟩
    simp only [List.map_cons, List.cons_append, inquire, r.given, hrest]
    rfl

theorem inquire_readings (names : NameSet) (readings : List Reading) :
    ∃ names', inquire names (readings.map Reading.contributor) =
      ⟨readings.map Reading.contributor, readings.map Reading.notice, .ok names'⟩ := by
  obtain ⟨names', h⟩ := inquire_append names readings []
  exact ⟨names', by simpa [inquire] using h⟩

theorem inquire_of_error {c : Contributor} {reason : ReadFailure}
    (hreason : c.acceptList = .error reason) (names : NameSet) (readings : List Reading)
    (later : List Contributor) :
    inquire names (readings.map Reading.contributor ++ c :: later) =
      ⟨readings.map Reading.contributor ++ [c], readings.map Reading.notice,
        .error (readFault c.name reason)⟩ := by
  obtain ⟨names', h⟩ := inquire_append names readings (c :: later)
  simpa [inquire, hreason] using h

theorem exists_readings (h : ∀ c ∈ contributors, ∃ list, c.acceptList = .ok list) :
    ∃ readings : List Reading, contributors = readings.map Reading.contributor := by
  induction contributors with
  | nil => exact ⟨[], rfl⟩
  | cons c rest ih =>
    rw [List.forall_mem_cons] at h
    obtain ⟨list, hlist⟩ := h.1
    obtain ⟨readings, hrest⟩ := ih h.2
    exact ⟨⟨c, list, hlist⟩ :: readings, by rw [hrest]; rfl⟩

/-- Either all lists are read, or there is a first one that is not. -/
theorem exists_readings_or_error (contributors : List Contributor) :
    (∃ readings : List Reading, contributors = readings.map Reading.contributor) ∨
      ∃ (readings : List Reading) (c : Contributor) (later : List Contributor)
        (reason : ReadFailure), contributors = readings.map Reading.contributor ++ c :: later ∧
          c.acceptList = .error reason := by
  induction contributors with
  | nil => exact Or.inl ⟨[], rfl⟩
  | cons c rest ih =>
    cases hlist : c.acceptList with
    | error reason => exact Or.inr ⟨[], c, rest, reason, rfl, hlist⟩
    | ok list =>
      rcases ih with ⟨readings, rfl⟩ | ⟨readings, d, later, reason, rfl, hreason⟩
      · exact Or.inl ⟨⟨c, list, hlist⟩ :: readings, rfl⟩
      · exact Or.inr ⟨⟨c, list, hlist⟩ :: readings, d, later, reason, rfl, hreason⟩

/-! ## The names of a merge -/

theorem mem_of_inquire (h : (inquire names contributors).reported.2 = .ok merged) (name : Text) :
    name ∈ merged ↔ name ∈ names ∨
      ∃ c ∈ contributors, ∃ list, c.acceptList = .ok list ∧ name ∈ list := by
  induction contributors generalizing names with
  | nil =>
    obtain rfl : names = merged := Except.ok.inj h
    simp
  | cons c rest ih =>
    cases hlist : c.acceptList with
    | error reason => simp [inquire, hlist] at h
    | ok list =>
      have hrest : (inquire (names.insertAll list) rest).reported.2 = .ok merged := by
        simpa only [inquire, hlist] using h
      rw [ih hrest, NameSet.mem_insertAll]
      simp [hlist, or_comm, or_assoc]

theorem mem_of_merge (h : (merge contributors).2 = .ok merged) (name : Text) :
    name ∈ merged ↔ ∃ c ∈ contributors, ∃ list, c.acceptList = .ok list ∧ name ∈ list :=
  (mem_of_inquire h name).trans (or_iff_right List.not_mem_nil)

theorem merge_readings (readings : List Reading) :
    ∃ names, merge (readings.map Reading.contributor) =
      (readings.map Reading.notice, .ok names) := by
  obtain ⟨names, h⟩ := inquire_readings .empty readings
  exact ⟨names, congrArg Inquiry.reported h⟩

/-- A merge that comes to an end sees no more of its contributors than which ones there are. -/
theorem merge_congr (hsame : ∀ c, c ∈ others ↔ c ∈ contributors)
    (hread : ∀ c ∈ contributors, ∃ list, c.acceptList = .ok list) :
    ∃ names, (merge contributors).2 = .ok names ∧ (merge others).2 = .ok names := by
  obtain ⟨readings, hreadings⟩ := exists_readings hread
  obtain ⟨readings', hreadings'⟩ := exists_readings fun c hc => hread c ((hsame c).1 hc)
  obtain ⟨names, hnames⟩ := merge_readings readings
  obtain ⟨names', hnames'⟩ := merge_readings readings'
  rw [← hreadings] at hnames
  rw [← hreadings'] at hnames'
  have hmerged : (merge contributors).2 = .ok names := congrArg Prod.snd hnames
  have hothers : (merge others).2 = .ok names' := congrArg Prod.snd hnames'
  have heq : names' = names := NameSet.eq_of_mem_iff fun name => by
    rw [mem_of_merge hothers, mem_of_merge hmerged]
    simp only [hsame]
  exact ⟨names, hmerged, heq ▸ hothers⟩

theorem mem_of_merge_readings {readings : List Reading}
    (h : (merge (readings.map Reading.contributor)).2 = .ok names) (name : Text) :
    name ∈ names ↔ ∃ r ∈ readings, name ∈ r.list := by
  rw [mem_of_merge h]
  constructor
  · rintro ⟨c, hc, list, hlist, hname⟩
    obtain ⟨r, hr, rfl⟩ := List.mem_map.1 hc
    cases r.given.symm.trans hlist
    exact ⟨r, hr, hname⟩
  · rintro ⟨r, hr, hname⟩
    exact ⟨r.contributor, List.mem_map_of_mem hr, r.list, r.given, hname⟩

/-! ## How a merge ends -/

theorem level_of_mem_notices {readings : List Reading} {notice : Notice}
    (h : notice ∈ readings.map Reading.notice) : notice.level = .info := by
  obtain ⟨r, -, rfl⟩ := List.mem_map.1 h
  rfl

theorem unites_readings (readings : List Reading) :
    ∃ names, Unites (readings.map Reading.contributor) readings names := by
  have hread : ∀ c ∈ readings.map Reading.contributor, ∃ list, c.acceptList = .ok list := by
    intro c hc
    obtain ⟨r, -, rfl⟩ := List.mem_map.1 hc
    exact ⟨r.list, r.given⟩
  obtain ⟨names, hmerge⟩ := merge_readings readings
  obtain ⟨names', hinquire⟩ := inquire_readings .empty readings
  have hresult : (merge (readings.map Reading.contributor)).2 = .ok names :=
    congrArg Prod.snd hmerge
  refine ⟨names, hmerge, congrArg Inquiry.asked hinquire, mem_of_merge_readings hresult, ?_⟩
  intro others hsame
  obtain ⟨common, hcommon, hothers⟩ := merge_congr hsame hread
  cases hresult.symm.trans hcommon
  exact hothers

theorem endsWith_of_error {c : Contributor} {reason : ReadFailure}
    (hreason : c.acceptList = .error reason) (readings : List Reading)
    (later : List Contributor) :
    EndsWith (readings.map Reading.contributor ++ c :: later) readings c reason := by
  have hinquire := inquire_of_error hreason .empty readings later
  refine ⟨congrArg Inquiry.reported hinquire, congrArg Inquiry.asked hinquire, ?_, ?_⟩
  · rintro why rfl
    exact ⟨rfl, rfl⟩
  · intro hother
    cases reason with
    | system why => exact absurd rfl (hother why)
    | _ => rfl

/-- Contributors that all give a list are united; otherwise the first one that gives none ends the
merge, behind the readings of those before it. -/
theorem merges_all (contributors : List Contributor) : Merges contributors where
  united := by
    intro hread
    obtain ⟨readings, rfl⟩ := exists_readings hread
    obtain ⟨names, hnames⟩ := unites_readings readings
    exact ⟨readings, names, rfl, hnames⟩
  ended := by
    rintro ⟨c, hc, reason, hreason⟩
    rcases exists_readings_or_error contributors with
      ⟨readings, rfl⟩ | ⟨readings, d, later, why, rfl, hwhy⟩
    · obtain ⟨r, -, rfl⟩ := List.mem_map.1 hc
      cases r.given.symm.trans hreason
    · exact ⟨readings, d, later, why, rfl, hwhy, endsWith_of_error hwhy readings later⟩
  informs := by
    intro notice hnotice
    rcases exists_readings_or_error contributors with
      ⟨readings, rfl⟩ | ⟨readings, d, later, why, rfl, hwhy⟩
    · obtain ⟨names, hnames⟩ := merge_readings readings
      rw [hnames] at hnotice
      exact level_of_mem_notices hnotice
    · rw [(endsWith_of_error hwhy readings later).merged] at hnotice
      exact level_of_mem_notices hnotice
  traced := rfl

end Gatekeeper.Contributor
