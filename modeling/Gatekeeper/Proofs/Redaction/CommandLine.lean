import Gatekeeper.Redaction.Redactor
import Gatekeeper.Proofs.Redaction.Cutting

/-!
# Command lines

A command line is written as pairs with whitespace between them. Main statement: scanning undoes
writing, so the pairs of a well-formed command line are found where they were written, and a
redaction is the same command line with other arguments (`findAll_text`).
-/

namespace Gatekeeper.Redaction

variable {v : Text}

structure Entry where
  pair : Pair
  gap : Text

structure CommandLine where
  lead : Text
  entries : List Entry

def Pair.IsOpen (p : Pair) : Prop := ∃ b ∈ p.binding, IsOpenQuote b.argument

def entriesText : List Entry → Text
  | [] => []
  | e :: entries => e.pair.text ++ (e.gap ++ entriesText entries)

/-- What entries need besides well-formed pairs: whitespace between any two, markers behind the
first, and a quote may be left open at the very end only. -/
structure WellSpaced (entries : List Entry) : Prop where
  gaps : ∀ e ∈ entries, Text.isBlank e.gap = true
  marked : ∀ e ∈ entries.tail, e.pair.marker ≠ .bare
  parted : ∀ e ∈ entries.dropLast, e.gap ≠ [] ∧ ¬ e.pair.IsOpen
  last : ∀ e ∈ entries.getLast?, e.pair.IsOpen → e.gap = []

def Entry.redacted (sensitive : Text → Bool) (token : Text) (e : Entry) : Entry where
  pair := if e.pair.isHidden sensitive then e.pair.withArgument token else e.pair
  gap := e.gap

namespace CommandLine

def text (l : CommandLine) : Text := l.lead ++ entriesText l.entries

structure WellFormed (l : CommandLine) : Prop where
  lead : Text.isBlank l.lead = true
  pairs : ∀ e ∈ l.entries, e.pair.WellFormed
  spaced : WellSpaced l.entries

/-- The pairs of entries, the first of which is written at a given position. -/
def foundFrom (start : Nat) : List Entry → List Found
  | [] => []
  | e :: entries => ⟨e.pair, start⟩ :: foundFrom (start + e.pair.text.length + e.gap.length) entries

def found (l : CommandLine) : List Found := foundFrom l.lead.length l.entries

/-- The command line with the token in place of every hidden argument. -/
def redacted (sensitive : Text → Bool) (token : Text) (l : CommandLine) : CommandLine where
  lead := l.lead
  entries := l.entries.map (Entry.redacted sensitive token)

def hiddenPairs (sensitive : Text → Bool) (l : CommandLine) : List Pair :=
  (l.entries.map Entry.pair).filter fun p => p.isHidden sensitive

end CommandLine

/-! ## The cutting of a command line -/

def gapPieces (gap : Text) : List Piece := if gap = [] then [] else [.gap gap]

def entryPieces : List Entry → List Piece
  | [] => []
  | e :: entries => .pair e.pair :: (gapPieces e.gap ++ entryPieces entries)

@[simp] theorem flatten_gapPieces (gap : Text) : flatten (gapPieces gap) = gap := by
  by_cases h : gap = [] <;> simp [gapPieces, h, Piece.text]

@[simp] theorem flatten_entryPieces (entries : List Entry) :
    flatten (entryPieces entries) = entriesText entries := by
  induction entries with
  | nil => rfl
  | cons e entries ih => simp [entryPieces, entriesText, Piece.text, ih]

theorem stops_isInk_of_isBlank {g : Text} (h : Text.isBlank g = true) : Stops isInk g := by
  cases g with
  | nil => simp
  | cons c g =>
    have hc : Text.isSpace c = true := List.all_eq_true.1 h c (by simp)
    simp [isInk, hc]

/-- An option stands alone in front of whitespace and the end of the line or another pair. -/
theorem Binding.read?_blank_append {g : Text} (hg : Text.isBlank g = true)
    (hv : v = [] ∨ startsPair v = true) : Binding.read? (g ++ v) = none := by
  have hspace : ∀ c ∈ g, Text.isSpace c = true := List.all_eq_true.1 hg
  have hhead : ∀ c ∈ v.head?, c = '-' := by
    intro c hc
    rcases hv with rfl | hv
    · simp at hc
    · rw [head?_of_startsPair hv] at hc
      exact (Option.some.inj hc).symm
  have hpad : Stops isPad v := by
    intro c hc
    rw [hhead c hc]
    decide
  have hequals : v.head? ≠ some '=' := fun h => absurd (hhead '=' h) (by decide)
  rw [read?_eq_none_iff, readAssignment?_append hpad hequals]
  intro a r hr
  obtain ⟨⟨a, r⟩, ha, heq⟩ := Option.map_eq_some_iff.1 hr
  obtain ⟨rfl, rfl⟩ := Prod.mk.inj heq
  have hgr := eq_append_of_readAssignment? ha
  cases r with
  | cons c r =>
    have hc : Text.isSpace c = true := hspace c (by simp [hgr])
    exact Or.inl (by simp [isInk, hc])
  | nil =>
    rcases hv with rfl | hv
    · exact Or.inl (by simp)
    · refine Or.inr ⟨fun hlast => ?_, hv⟩
      have hmem : '=' ∈ g := by
        rw [hgr, List.append_nil]
        exact List.mem_of_getLast? hlast
      exact absurd (hspace '=' hmem) (by decide)

namespace WellSpaced

variable {e : Entry} {entries : List Entry}

theorem tail (h : WellSpaced (e :: entries)) : WellSpaced entries where
  gaps := fun e' he => h.gaps e' (by simp [he])
  marked := fun e' he => h.marked e' (List.mem_of_mem_tail he)
  parted := by
    cases entries with
    | nil => simp
    | cons e' entries => exact fun d hd => h.parted d (by simp [hd])
  last := by
    cases entries with
    | nil => simp
    | cons e' entries => exact fun d hd => h.last d (by simpa using hd)

theorem stops_isInk (h : WellSpaced (e :: entries)) :
    Stops isInk (e.gap ++ entriesText entries) := by
  have hblank := stops_isInk_of_isBlank (h.gaps e (by simp))
  by_cases hgap : e.gap = []
  · cases entries with
    | nil => simp [hgap, entriesText]
    | cons e' entries => exact absurd hgap (h.parted e (by simp)).1
  · rwa [stops_append_of_ne_nil hgap]

theorem eq_nil_of_isOpen (h : WellSpaced (e :: entries)) (hopen : e.pair.IsOpen) :
    e.gap ++ entriesText entries = [] := by
  cases entries with
  | nil => simp [h.last e (by simp) hopen, entriesText]
  | cons e' entries => exact absurd hopen (h.parted e (by simp)).2

theorem ends (h : WellSpaced (e :: entries))
    (hnext : entriesText entries = [] ∨ startsPair (entriesText entries) = true) :
    e.pair.Ends (e.gap ++ entriesText entries) := by
  have hink := h.stops_isInk
  have hopen := h.eq_nil_of_isOpen
  have halone := Binding.read?_blank_append (h.gaps e (by simp)) hnext
  obtain ⟨⟨marker, option, binding⟩, gap⟩ := e
  cases binding with
  | none => exact ⟨hink.mono fun _ => isInk_of_isOptionChar, halone⟩
  | some b => exact ⟨hink, fun hb => hopen ⟨b, rfl, hb⟩⟩

end WellSpaced

theorem stops_isSpace_entriesText {entries : List Entry}
    (h : ∀ e ∈ entries, e.pair.WellFormed) : Stops Text.isSpace (entriesText entries) := by
  cases entries with
  | nil => exact stops_nil
  | cons e entries =>
    rw [entriesText]
    exact (h e (by simp)).stops_isSpace _

theorem fitting_entries {place : Place} {entries : List Entry}
    (hpairs : ∀ e ∈ entries, e.pair.WellFormed) (hspaced : WellSpaced entries)
    (hfirst : ∀ e ∈ entries.head?, place.Allows e.pair.marker) :
    Fitting place (entryPieces entries) := by
  -- From the back: whether a pair ends depends on what the entries behind it start with.
  induction entries generalizing place with
  | nil => trivial
  | cons e entries ih =>
    have hmarked : ∀ e' ∈ entries, e'.pair.marker ≠ .bare := hspaced.marked
    have hpairs' : ∀ e' ∈ entries, e'.pair.WellFormed := fun e' he => hpairs e' (by simp [he])
    have hrest : Fitting .boundary (entryPieces entries) :=
      ih hpairs' hspaced.tail fun e' he => hmarked e' (List.mem_of_mem_head? he)
    have hnext : entriesText entries = [] ∨ startsPair (entriesText entries) = true := by
      cases entries with
      | nil => exact Or.inl rfl
      | cons e' entries =>
        obtain ⟨hp, _, hends⟩ := hrest.1
        rw [flatten_append, flatten_gapPieces, flatten_entryPieces] at hends
        refine Or.inr ?_
        rw [entriesText]
        exact (Pair.startsPair_text hp hends).2 (hmarked e' (by simp))
    have hends : e.pair.Ends (flatten (gapPieces e.gap ++ entryPieces entries)) := by
      simpa using hspaced.ends hnext
    refine ⟨⟨hpairs e (by simp), hfirst e (by simp), hends⟩, ?_⟩
    by_cases hgap : e.gap = []
    · cases entries with
      | nil =>
        rw [gapPieces, if_pos hgap]
        trivial
      | cons e' entries => exact absurd hgap (hspaced.parted e (by simp)).1
    · have hfits : Piece.Fits .inside (flatten (entryPieces entries)) (.gap e.gap) := by
        refine ⟨hgap, hspaced.gaps e (by simp), ?_⟩
        rw [flatten_entryPieces]
        exact stops_isSpace_entriesText hpairs'
      rw [gapPieces, if_neg hgap]
      exact ⟨hfits, hrest⟩

namespace CommandLine

theorem scan_text {l : CommandLine} (h : l.WellFormed) :
    scan l.text = gapPieces l.lead ++ entryPieces l.entries := by
  have hentries : Fitting .opening (entryPieces l.entries) :=
    fitting_entries h.pairs h.spaced fun e _ => trivial
  refine scanFrom_eq_iff.2 ⟨by simp [text], ?_⟩
  by_cases hlead : l.lead = []
  · simpa [gapPieces, hlead] using hentries
  · have hfits : Piece.Fits .opening (flatten (entryPieces l.entries)) (.gap l.lead) := by
      refine ⟨hlead, h.lead, ?_⟩
      rw [flatten_entryPieces]
      exact stops_isSpace_entriesText h.pairs
    rw [gapPieces, if_neg hlead]
    exact ⟨hfits, hentries⟩

theorem locate_entryPieces (start : Nat) (entries : List Entry) :
    locate start (entryPieces entries) = foundFrom start entries := by
  induction entries generalizing start with
  | nil => rfl
  | cons e entries ih =>
    by_cases hgap : e.gap = []
    · simp [entryPieces, gapPieces, hgap, locate, foundFrom, ih]
    · simp [entryPieces, gapPieces, hgap, locate, foundFrom, Piece.text, ih]

theorem findAll_eq_found {l : CommandLine} (h : l.WellFormed) : findAll l.text = l.found := by
  rw [findAll, scan_text h, found, ← locate_entryPieces]
  by_cases hlead : l.lead = []
  · simp [gapPieces, hlead]
  · simp [gapPieces, hlead, locate, Piece.text]

theorem flatMap_redacted_entryPieces (sensitive : Text → Bool) (token : Text)
    (entries : List Entry) :
    (entryPieces entries).flatMap (Piece.redacted sensitive token) =
      entriesText (entries.map (Entry.redacted sensitive token)) := by
  induction entries with
  | nil => rfl
  | cons e entries ih =>
    have hgap : (gapPieces e.gap).flatMap (Piece.redacted sensitive token) = e.gap := by
      by_cases h : e.gap = [] <;> simp [gapPieces, h, Piece.redacted, Piece.text]
    by_cases hh : e.pair.isHidden sensitive = true <;>
      simp [entryPieces, entriesText, Entry.redacted, Piece.redacted, hh, hgap, ih]

theorem redactLine_eq_redacted {l : CommandLine} (h : l.WellFormed) (sensitive : Text → Bool)
    (token : Text) : redactLine sensitive token l.text = (l.redacted sensitive token).text := by
  rw [redactLine, scan_text h, List.flatMap_append, flatMap_redacted_entryPieces, text, redacted]
  by_cases hlead : l.lead = [] <;> simp [gapPieces, hlead, Piece.redacted, Piece.text]

theorem filterMap_hiddenOption?_entryPieces (sensitive : Text → Bool) (entries : List Entry) :
    (entryPieces entries).filterMap (Piece.hiddenOption? sensitive) =
      ((entries.map Entry.pair).filter fun p => p.isHidden sensitive).map Pair.option := by
  induction entries with
  | nil => rfl
  | cons e entries ih =>
    have hgap : (gapPieces e.gap).filterMap (Piece.hiddenOption? sensitive) = [] := by
      by_cases h : e.gap = [] <;> simp [gapPieces, h, Piece.hiddenOption?]
    by_cases hh : e.pair.isHidden sensitive = true <;>
      simp [entryPieces, Piece.hiddenOption?, hh, hgap, ih]

theorem hiddenOptions_eq_map {l : CommandLine} (h : l.WellFormed) (sensitive : Text → Bool) :
    hiddenOptions sensitive l.text = (l.hiddenPairs sensitive).map Pair.option := by
  rw [hiddenOptions, scan_text h, List.filterMap_append, filterMap_hiddenOption?_entryPieces,
    hiddenPairs]
  by_cases hlead : l.lead = [] <;> simp [gapPieces, hlead, Piece.hiddenOption?]

/-- Scanning undoes writing: the pairs of a well-formed command line are found one by one, each
with its parts and its position, and its redaction is the command line with the token in place of
the hidden arguments. -/
theorem findAll_text {l : CommandLine} (h : l.WellFormed) :
    findAll l.text = l.found ∧
      ∀ (sensitive : Text → Bool) (token : Text),
        redactLine sensitive token l.text = (l.redacted sensitive token).text ∧
          redactionNotices sensitive l.text =
            (l.hiddenPairs sensitive).map fun p => .argumentRedacted p.option := by
  refine ⟨findAll_eq_found h, fun sensitive token => ⟨redactLine_eq_redacted h sensitive token, ?_⟩⟩
  rw [redactionNotices, hiddenOptions_eq_map h, List.map_map]
  rfl

theorem findAll_text_threePairs :
    findAll "user=me --verbose\t--J=-Dpassword = \"open --x".toList =
        [⟨⟨.bare, "user".toList, some ⟨['='], "me".toList⟩⟩, 0⟩,
          ⟨⟨.hyphens 0, "verbose".toList, none⟩, 8⟩,
          ⟨⟨.forwarded, "password".toList, some ⟨" = ".toList, "\"open --x".toList⟩⟩, 18⟩] ∧
      redactLine Dictionary.standard.isSensitive "***".toList
          "user=me --verbose\t--J=-Dpassword = \"open --x".toList =
        "user=me --verbose\t--J=-Dpassword = ***".toList := by
  have huser := Pair.read?_eq_some_iff.1 (by decide +kernel :
    Pair.read? true "user=me".toList =
      some (⟨.bare, "user".toList, some ⟨['='], "me".toList⟩⟩, []))
  have hverbose := Pair.read?_eq_some_iff.1 (by decide +kernel :
    Pair.read? false "--verbose".toList = some (⟨.hyphens 0, "verbose".toList, none⟩, []))
  have hpassword := Pair.read?_eq_some_iff.1 (by decide +kernel :
    Pair.read? false "--J=-Dpassword = \"open --x".toList =
      some (⟨.forwarded, "password".toList, some ⟨" = ".toList, "\"open --x".toList⟩⟩, []))
  have hclosed : ¬ IsOpenQuote "me".toList := fun ⟨_, _, h⟩ => absurd h (by simp)
  have hwf : CommandLine.WellFormed ⟨[], [
      ⟨⟨.bare, "user".toList, some ⟨['='], "me".toList⟩⟩, [' ']⟩,
      ⟨⟨.hyphens 0, "verbose".toList, none⟩, ['\t']⟩,
      ⟨⟨.forwarded, "password".toList, some ⟨" = ".toList, "\"open --x".toList⟩⟩, []⟩]⟩ :=
    ⟨rfl, by simpa using ⟨huser.2.1, hverbose.2.1, hpassword.2.1⟩,
      ⟨by decide, by decide, by simpa [Pair.IsOpen] using hclosed, by simp⟩⟩
  obtain ⟨hfound, hredacted⟩ := findAll_text hwf
  exact ⟨hfound, (hredacted Dictionary.standard.isSensitive "***".toList).1⟩

end CommandLine

end Gatekeeper.Redaction
