import Gatekeeper.Configuration.Choice
import Gatekeeper.Proofs.Configuration.Agreement
import Gatekeeper.Proofs.Contributor.Merging

/-!
# Where the screen of a process comes from

A process that starts up finds a pattern in a variable, or finds the screen of the settings switched
on, or goes without a screen. Main statement: each of the three settles the screen by itself, and
what the other two would have brought is not asked for (`resolves_configured`).
-/

namespace Gatekeeper

open Gatekeeper.Configuration (Attempted Circumstances Properties Settings Site Variables)
open Contributor (Entry)
open Guard (Probes Process Screener)
open Screening (AcceptPattern NameSet Screen element sanctionedVerdict)

/-- What a process finds when it is configured from properties for the first time. -/
structure Startup where
  probes : Probes
  arrays : Bool
  entries : List Entry
  permitted : Bool
  properties : Properties
  /-- What the pattern property holds, if it is there. -/
  property : Option Text
  bindings : Variables
  supported : probes.supported = true
  reads : (properties.lookup Configuration.patternProperty).getD .null = Value.ofText? property

/-- A text that may be missing, trimmed; a blank one counts as missing. -/
def Text.present? (t : Option Text) : Option Text :=
  (t.filter fun t => !Text.isBlank t).map Text.trim

namespace Startup

def pattern? (e : Startup) : Option Text :=
  Text.present? (e.bindings.get? Configuration.patternVariable)

def clause? (e : Startup) : Option Text := Text.present? e.property

/-- The screen of the settings is switched on. -/
def Enabled (e : Startup) : Prop :=
  ∃ t, e.bindings.get? Configuration.enablingVariable = some t ∧
    ((Text.trim t).map Char.toLower = "1".toList ∨ (Text.trim t).map Char.toLower = "true".toList)

def contributors (e : Startup) : Except Fault (List Contributor) :=
  Contributor.discover e.arrays e.entries

/-- A contributor that is found sanctions a name. -/
def Sanctions (e : Startup) (name : Text) : Prop :=
  ∃ contributors, e.contributors = .ok contributors ∧
    ∃ c ∈ contributors, ∃ list, c.acceptList = .ok list ∧ name ∈ list

def sanctioned (e : Startup) : Reported NameSet :=
  (Reported.ofResult e.contributors).andThen Contributor.merge

/-- The pattern of sanctioned classes with the clause of the properties. -/
def source (e : Startup) : Text := AcceptPattern.ofClauses [e.clause?]

def circumstances (e : Startup) : Circumstances :=
  ⟨e.probes.backing, e.contributors, e.permitted⟩

def fresh (e : Startup) : Site := ⟨{}, e.bindings⟩

/-- The process configured from its properties, with no word on whether the settings are wanted. -/
def configured (e : Startup) : Site × Reported Bool :=
  Configuration.attemptFrom e.properties (Configuration.settingsWanted e.probes e.bindings)
    e.circumstances e.fresh

/-- What a fault leaves behind: nothing is changed, but an exit leaves the attempt open. -/
def leftBy (e : Startup) (fault : Fault) : Site :=
  if fault.isExit then ⟨e.fresh.process.begun, e.bindings⟩ else e.fresh

/-- A fault is passed on, and no screen is set. -/
def Raises (e : Startup) (fault : Fault) : Prop :=
  e.configured.1 = e.leftBy fault ∧ e.configured.2.2 = .error fault

def Installs (e : Startup) (screen : Screen) : Prop :=
  e.configured.2.2 = .ok true ∧ e.configured.1.process.state.screen = some screen

/-- The variable holds a pattern: it is taken as it stands, or is malformed. -/
structure ByVariable (e : Startup) (pattern : Text) : Prop where
  raises : ∀ fault, Screen.ofPattern pattern = .error fault →
    (∃ t, fault = .malformedClause t) ∧ e.Raises fault
  installs : ∀ given, Screen.ofPattern pattern = .ok given →
    ∃ installed, e.Installs installed ∧ ∀ c, installed.verdict c = given.verdict c
  /-- Nothing but the pattern and the backing matters: not the properties, and not the
  contributors. -/
  alone : ∀ other : Startup, other.probes = e.probes → other.pattern? = e.pattern? →
    other.configured.1.process = e.configured.1.process ∧ other.configured.2 = e.configured.2

/-- The settings are switched on: what the contributors sanction is allowed, and the pattern of
sanctioned classes decides the rest, whether or not the properties ask for validation. -/
structure BySettings (e : Startup) : Prop where
  unloadable : ∀ fault, e.sanctioned.2 = .error fault → e.Raises fault
  malformed : ∀ names fault, e.sanctioned.2 = .ok names → Screen.ofPattern e.source = .error fault →
    (∃ t, fault = .malformedClause t) ∧ e.Raises fault
  installs : ∀ names given, e.sanctioned.2 = .ok names → Screen.ofPattern e.source = .ok given →
    ∃ installed, e.Installs installed ∧ ∀ c name, c.elementName = some name →
      (e.Sanctions name → installed.verdict c = .allowed) ∧
      (¬ e.Sanctions name → installed.verdict c = given.verdict c ∧
        installed.verdict c = sanctionedVerdict [e.clause?] name) ∧
      installed.verdict c ≠ .undecided

/-- Which of the three it is, going by the two variables. -/
structure Resolves (e : Startup) : Prop where
  byVariable : ∀ pattern, e.pattern? = some pattern → e.ByVariable pattern
  bySettings : e.pattern? = none → e.Enabled → e.BySettings
  without : e.pattern? = none → ¬ e.Enabled → e.configured = (e.fresh, .success false)

end Startup

/-! ## Sanctioned names -/

theorem Screening.Screen.settles_empty (c : Screening.Candidate) :
    settles .empty c = false := by
  unfold settles
  cases c.elementName <;> rfl

theorem Screening.Screen.verdict_ofClauses {appended : List (Option Text)} {screen : Screen}
    (h : Screen.ofPattern (AcceptPattern.ofClauses appended) = .ok screen)
    {c : Screening.Candidate} {name : Text} (hname : c.elementName = some name) :
    screen.verdict c = sanctionedVerdict appended name := by
  unfold ofPattern at h
  cases hread : Screening.Pattern.read (AcceptPattern.ofClauses appended) with
  | error fault => simp [hread] at h
  | ok p =>
    obtain rfl : Screen.pattern p = screen := by simpa [hread] using h
    simp [verdict, Screening.Pattern.verdict, hname, Screening.verdictOf_ofClauses hread]

/-! ## What is read -/

theorem Text.present?_some (t : Text) :
    Text.present? (some t) = if Text.isBlank t then none else some (Text.trim t) := by
  cases h : Text.isBlank t <;> simp [Text.present?, Option.filter, h]

theorem Text.present?_eq_none_iff {t : Option Text} :
    Text.present? t = none ↔ Text.isBlank? t = true := by
  cases t with
  | none => simp [Text.isBlank?, Text.present?]
  | some t => simp [Text.isBlank?, Text.present?_some]

theorem Configuration.Settings.patternOf_ofText? (t : Option Text) :
    patternOf (.ofText? t) = .ok (Text.present? t) := by
  cases t with
  | none => rfl
  | some t => rw [Text.present?_some]; rfl

theorem Configuration.ofVariable_eq (bindings : Variables) :
    ofVariable bindings =
      match Text.present? (bindings.get? patternVariable) with
      | none => ⟨.nothing, .unset⟩
      | some pattern => ⟨.givenPattern (some pattern), .unset⟩ := by
  unfold ofVariable
  cases bindings.get? patternVariable with
  | none => rfl
  | some t => cases h : Text.isBlank t <;> simp [Text.present?_some, h]

namespace Startup

variable {e : Startup} {fault : Fault} {names : NameSet} {screen given : Screen} {pattern : Text}

def settings (e : Startup) : Settings :=
  ⟨((e.properties.lookup Configuration.validateProperty).getD .null).isEnabled, e.clause?⟩

theorem ofProperties_eq (e : Startup) : Settings.ofProperties e.properties = .ok e.settings := by
  rw [Settings.ofProperties, e.reads, Settings.patternOf_ofText?]
  rfl

theorem settingsWanted_iff (e : Startup) :
    Configuration.settingsWanted e.probes e.bindings = true ↔ e.pattern? = none ∧ e.Enabled := by
  have hblank : Text.isBlank? (e.bindings.get? Configuration.patternVariable) = true ↔
      e.pattern? = none := Text.present?_eq_none_iff.symm
  have henabled : (Value.text ((e.bindings.get? Configuration.enablingVariable).getD
      "false".toList)).isEnabled = true ↔ e.Enabled := by
    cases hbound : e.bindings.get? Configuration.enablingVariable with
    | none =>
      refine iff_of_false (by decide +kernel) ?_
      simp [Enabled, hbound]
    | some t =>
      simp only [Enabled, hbound, Option.getD_some, Value.isEnabled, Value.display,
        Bool.or_eq_true, Option.some.injEq, exists_eq_left']
      exact or_congr decide_eq_true_iff decide_eq_true_iff
  rw [Configuration.settingsWanted, e.supported, Bool.true_and, Bool.and_eq_true, hblank, henabled]

/-! ## Which configuration it is -/

theorem configured_eq {c : Configuration} (h : Configuration.choose
    (Configuration.settingsWanted e.probes e.bindings) e.settings .discovered e.bindings = c) :
    e.configured = ((c.attempt e.circumstances e.fresh).site,
      (c.attempt e.circumstances e.fresh).reported) := by
  rw [configured, Configuration.attemptFrom, ofProperties_eq]
  subst h
  rfl

theorem choose_of_not_wanted
    (h : ¬ Configuration.settingsWanted e.probes e.bindings = true) :
    Configuration.choose (Configuration.settingsWanted e.probes e.bindings) e.settings .discovered
        e.bindings =
      match e.pattern? with
      | none => ⟨.nothing, .unset⟩
      | some pattern => ⟨.givenPattern (some pattern), .unset⟩ := by
  rw [Configuration.choose, if_neg h, Configuration.ofVariable_eq]
  rfl

/-- The first attempt of a screener, as the process is configured by it. -/
def firstBy (e : Startup) (s : Screener) : Site × Reported Bool :=
  ((s.attempt e.circumstances {} e.bindings).site,
    (s.attempt e.circumstances {} e.bindings).reported)

theorem configured_of_pattern (h : e.pattern? = some pattern) :
    e.configured = e.firstBy ⟨.givenPattern (some pattern), .unset⟩ := by
  have hwanted : ¬ Configuration.settingsWanted e.probes e.bindings = true := by
    simp [e.settingsWanted_iff, h]
  exact configured_eq ((choose_of_not_wanted hwanted).trans (by rw [h]; rfl))

theorem configured_of_enabled (h : e.pattern? = none) (henabled : e.Enabled) :
    e.configured = e.firstBy ⟨.settings e.settings .discovered, .unset⟩ :=
  configured_eq (if_pos (e.settingsWanted_iff.2 ⟨h, henabled⟩))

theorem configured_of_not_enabled (h : e.pattern? = none) (henabled : ¬ e.Enabled) :
    e.configured = (e.fresh, .success false) := by
  have hwanted : ¬ Configuration.settingsWanted e.probes e.bindings = true := by
    simp [e.settingsWanted_iff, henabled]
  have hchosen := (choose_of_not_wanted hwanted).trans
    (by rw [h] : _ = (⟨.nothing, .unset⟩ : Configuration))
  exact configured_eq hchosen

/-! ## The first attempt -/

theorem ordinary_circumstances (e : Startup) : e.circumstances.Ordinary :=
  Configuration.ordinary_of_discover e.probes e.arrays e.entries e.permitted

theorem site_attempt (e : Startup) (s : Screener) :
    (s.attempt e.circumstances {} e.bindings).site =
      ⟨(s.attempt e.circumstances {} e.bindings).site.process, e.bindings⟩ := by
  obtain ⟨origin, outcome⟩ := s
  cases origin <;> rfl

/-- A screener that makes no screen passes its fault on. -/
theorem raises_of_made {s : Screener} (h : e.configured = e.firstBy s)
    (hmade : (s.origin.make e.circumstances).2 = .error fault) : e.Raises fault := by
  obtain ⟨backing, hbacking, -⟩ := Probes.backing_of_supported e.supported
  obtain ⟨done, hends, hprocess, hreported⟩ := Screener.ends_attempt
    Environment.orderly_fresh e.ordinary_circumstances s e.bindings
  rw [Raises, h, firstBy, site_attempt, hprocess, hreported]
  cases hends with
  | unsupported notices hlacking => cases hbacking.symm.trans hlacking
  | failed notices _ hfault hfailure =>
    cases hmade.symm.trans hfault
    rw [leftBy, hfailure]
    exact ⟨rfl, rfl⟩
  | exited notices _ hfault hexit =>
    cases hmade.symm.trans hfault
    rw [leftBy, hexit]
    exact ⟨rfl, rfl⟩
  | alreadySet notices _ hscreen => cases hmade.symm.trans hscreen
  | unenforced notices _ hscreen => cases hmade.symm.trans hscreen
  | set notices _ hscreen => cases hmade.symm.trans hscreen

theorem installs_of_made {s : Screener} (h : e.configured = e.firstBy s)
    (hmade : (s.origin.make e.circumstances).2 = .ok screen) : e.Installs screen := by
  obtain ⟨backing, hbacking, henforces⟩ := Probes.backing_of_supported e.supported
  obtain ⟨hreported, hprocess⟩ := Screener.attempt_of_gives Environment.orderly_fresh
    e.ordinary_circumstances rfl ⟨hbacking, hmade, henforces⟩ e.bindings
  rw [Installs, h]
  exact ⟨hreported, by rw [firstBy, hprocess]; rfl⟩

/-! ## The three ways -/

theorem byVariable (h : e.pattern? = some pattern) : e.ByVariable pattern where
  raises := by
    intro fault hfault
    have hmade : Screen.ofPatternBeyond .empty pattern = .error fault := by
      rw [Screen.ofPatternBeyond, hfault]
    exact ⟨Screen.malformedClause_of_ofPattern hfault,
      raises_of_made (configured_of_pattern h) hmade⟩
  installs := by
    intro given hgiven
    have hmade : Screen.ofPatternBeyond .empty pattern = .ok (.sanctioning .empty given) := by
      rw [Screen.ofPatternBeyond, hgiven]
    refine ⟨_, installs_of_made (configured_of_pattern h) hmade, fun c => ?_⟩
    rw [Screen.verdict, Screen.settles_empty]
    rfl
  alone := by
    intro other hprobes hpattern
    -- The pattern and the backing are all that the attempt looks at.
    have hfirst (d : Startup) (hd : d.pattern? = some pattern) :
        d.configured.1.process = (Process.configure {} d.probes.backing
          (Configuration.screenOfVariable (some pattern))).process ∧
        d.configured.2 = (Process.configure {} d.probes.backing
          (Configuration.screenOfVariable (some pattern))).reported := by
      rw [configured_of_pattern hd]
      exact ⟨rfl, rfl⟩
    rw [(hfirst other (hpattern.trans h)).1, (hfirst other (hpattern.trans h)).2, (hfirst e h).1,
      (hfirst e h).2, hprobes]
    exact ⟨rfl, rfl⟩

/-- With a backing the settings validate, so their clause is active. -/
theorem make_settings (e : Startup) :
    (Guard.Origin.settings e.settings .discovered).make e.circumstances =
      Configuration.screenBeyond e.clause? e.contributors := by
  obtain ⟨backing, hbacking, -⟩ := Probes.backing_of_supported e.supported
  simp [Guard.Origin.make, Contributor.Supply.contributors, circumstances, hbacking,
    Configuration.validating, Settings.activePattern, settings]

theorem mem_sanctioned (h : e.sanctioned.2 = .ok names) (name : Text) :
    name ∈ names ↔ e.Sanctions name := by
  obtain ⟨contributors, hcontributors, hmerge⟩ := Reported.andThen_eq_ok_iff.1 h
  have hfound : e.contributors = .ok contributors := hcontributors
  rw [Contributor.mem_of_merge hmerge, Sanctions, hfound]
  simp

theorem bySettings (h : e.pattern? = none) (henabled : e.Enabled) : e.BySettings where
  unloadable := by
    intro fault hfault
    refine raises_of_made (configured_of_enabled h henabled) ?_
    rw [make_settings, Configuration.screenBeyond_of_unloadable hfault]
  malformed := by
    intro names fault hnames hfault
    refine ⟨Screen.malformedClause_of_ofPattern hfault,
      raises_of_made (configured_of_enabled h henabled) ?_⟩
    rw [make_settings, Configuration.screenBeyond_of_sanctioned hnames, Screen.ofPatternBeyond,
      ← source, hfault]
  installs := by
    intro names given hnames hgiven
    have hmade : ((Guard.Origin.settings e.settings .discovered).make e.circumstances).2 =
        .ok (.sanctioning names given) := by
      rw [make_settings, Configuration.screenBeyond_of_sanctioned hnames, Screen.ofPatternBeyond,
        ← source, hgiven]
    refine ⟨_, installs_of_made (configured_of_enabled h henabled) hmade, fun c name hname => ?_⟩
    have hgivenVerdict : given.verdict c = sanctionedVerdict [e.clause?] name :=
      Screen.verdict_ofClauses hgiven hname
    have hsettles : Screen.settles names c = true ↔ e.Sanctions name := by
      rw [Screen.settles, hname, Option.any_some, NameSet.contains_eq_true_iff,
        mem_sanctioned hnames]
    by_cases hsanctioned : e.Sanctions name
    · have hverdict : (Screen.sanctioning names given).verdict c = .allowed := by
        rw [Screen.verdict, if_pos (hsettles.2 hsanctioned)]
      exact ⟨fun _ => hverdict, fun hn => absurd hsanctioned hn, by simp [hverdict]⟩
    · have hverdict : (Screen.sanctioning names given).verdict c = given.verdict c := by
        rw [Screen.verdict, if_neg (mt hsettles.1 hsanctioned)]
      refine ⟨fun hs => absurd hs hsanctioned,
        fun _ => ⟨hverdict, hverdict.trans hgivenVerdict⟩, ?_⟩
      rw [hverdict, hgivenVerdict]
      exact Screening.sanctionedVerdict_ne_undecided _ _

/-- What the variable holds comes first, then the settings if they are switched on; else there is
nothing to screen by. -/
theorem resolves_configured (e : Startup) : e.Resolves where
  byVariable := fun _ h => byVariable h
  bySettings := bySettings
  without := configured_of_not_enabled

def withBrokenEntry (bindings : Variables) : Startup where
  probes := ⟨true, true⟩
  arrays := false
  entries := [⟨"late".toList, .error .moduleNotFound⟩]
  permitted := true
  properties := []
  property := none
  bindings := bindings
  supported := rfl
  reads := rfl

def switchedOn : Variables := Table.empty.put Configuration.enablingVariable " True ".toList

/-- The entry is not loaded where the variable holds a pattern, nor where nothing is switched on. -/
theorem resolves_configured_brokenEntry :
    (∃ installed,
      (withBrokenEntry (switchedOn.put Configuration.patternVariable "!a.*".toList)).Installs
        installed ∧
      installed.verdict (.ofName "a.B".toList) = .rejected ∧
      installed.verdict (.ofName "c.D".toList) = .undecided) ∧
    (withBrokenEntry switchedOn).Raises (.unloadableEntry "late".toList .moduleNotFound) ∧
    (withBrokenEntry .empty).configured = ((withBrokenEntry .empty).fresh, .success false) := by
  refine ⟨?_, ?_, ?_⟩
  · have hread : Screening.Pattern.read "!a.*".toList =
        .ok ⟨"!a.*".toList, [⟨true, "a.".toList, .one⟩]⟩ := by decide +kernel
    obtain ⟨installed, hinstalls, hverdict⟩ := ((resolves_configured (withBrokenEntry
      (switchedOn.put Configuration.patternVariable "!a.*".toList))).byVariable "!a.*".toList
        (by decide +kernel)).installs _ (by rw [Screen.ofPattern, hread])
    refine ⟨installed, hinstalls, ?_, ?_⟩ <;> rw [hverdict] <;> decide +kernel
  · refine ((resolves_configured (withBrokenEntry switchedOn)).bySettings rfl ?_).unloadable _ rfl
    exact ⟨_, rfl, Or.inr (by decide +kernel)⟩
  · refine (resolves_configured (withBrokenEntry .empty)).without rfl ?_
    rintro ⟨t, ht, -⟩
    simp [withBrokenEntry] at ht

end Startup
end Gatekeeper
