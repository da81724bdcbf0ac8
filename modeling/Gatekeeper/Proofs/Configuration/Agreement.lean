import Gatekeeper.Command.Run
import Gatekeeper.Configuration.StreamScreen
import Gatekeeper.Proofs.Configuration.Retry
import Gatekeeper.Proofs.Contributor.Merging
import Gatekeeper.Proofs.Screening.AcceptPattern

/-!
# Three ways to a screen

A clause of one's own becomes part of a screen through the settings of the process, through those of
a stream, and on the command line. Main statement: the three ways come to the same verdicts, and to
the same faults (`screens_agree`).
-/

namespace Gatekeeper

open Gatekeeper.Configuration (Attempted Circumstances Properties Settings Variables)
open Contributor (Entry)
open Guard (Origin Phase Probes Screener)
open Screening (AcceptPattern NameSet Pattern Screen Verdict element)

/-- An environment in which a clause is configured, neither blank nor with blanks around it. -/
structure Environment where
  probes : Probes
  arrays : Bool
  entries : List Entry
  permitted : Bool
  properties : Properties
  /-- What the validation property is set to where validation is wanted. -/
  switch : Value
  clause : Text
  supported : probes.supported = true
  trimmed : Text.trim clause = clause
  present : Text.isBlank clause = false
  configured : properties.lookup Configuration.patternProperty = some (.text clause)
  enables : switch.isEnabled = true

namespace Environment

def contributors (e : Environment) : Except Fault (List Contributor) :=
  Contributor.discover e.arrays e.entries

def circumstances (e : Environment) : Circumstances :=
  ⟨e.probes.backing, e.contributors, e.permitted⟩

/-- The names that the discovered contributors sanction. -/
def sanctioned (e : Environment) : Reported NameSet :=
  (Reported.ofResult e.contributors).andThen Contributor.merge

def source (e : Environment) : Text := AcceptPattern.ofClauses [some e.clause]

/-- The first attempt to screen the process by the properties. -/
def screenProcess (e : Environment) (outcome : Phase) (bindings : Variables) :
    Except Fault Attempted :=
  (Settings.ofProperties e.properties).map fun s =>
    (⟨.settings s .discovered, outcome⟩ : Configuration).attempt e.circumstances ⟨{}, bindings⟩

/-- The attempt sets no screen and passes a fault on. -/
def PassesOn (e : Environment) (outcome : Phase) (bindings : Variables) (fault : Fault) : Prop :=
  ∃ done, e.screenProcess outcome bindings = .ok done ∧ done.reported.2 = .error fault ∧
    done.site.process.state.screen = none

/-- The screen for single streams by the same properties, with validation switched on. -/
def screenStream (e : Environment) (names : List Text) : Reported (Option Screen) :=
  (Reported.ofResult
    (Settings.ofProperties ((Configuration.validateProperty, e.switch) :: e.properties))).andThen
      fun s => Configuration.streamScreen s (some names) e.probes.backing

def check (e : Environment) (input name : Text) : Reported Command.Output :=
  Command.run e.contributors input (.check name (some (.text e.clause)))

def print (e : Environment) (input : Text) : Reported Command.Output :=
  Command.run e.contributors input (.pattern (some (.text e.clause)) false)

end Environment

/-- Sanctioned names are allowed; an inner screen decides the others. -/
def verdictBeyond (names : NameSet) (inner : Screen) (name : Text) : Verdict :=
  if names.contains (element name) then .allowed else inner.verdict (.ofName name)

/-- The process, the streams and the command line agree on every class and on every fault. -/
structure Environment.Agrees (e : Environment) (outcome : Phase) (bindings : Variables)
    (input : Text) : Prop where
  printed : (e.print input).2 = .ok ⟨0, e.source ++ ['\n'], []⟩
  decided : ∀ names inner, e.sanctioned.2 = .ok names → Screen.ofPattern e.source = .ok inner →
    ∃ done installed, e.screenProcess outcome bindings = .ok done ∧ done.reported.2 = .ok true ∧
      done.site.process.state.screen = some installed ∧
      ∀ list, (∀ name, name ∈ list ↔ name ∈ names) →
        ∃ given, (e.screenStream list).2 = .ok (some given) ∧
          ∀ name, installed.verdict (.ofName name) = verdictBeyond names inner name ∧
            given.verdict (.ofName name) = verdictBeyond names inner name ∧
            (e.check input name).2 = .ok
              ⟨if verdictBeyond names inner name = .rejected then 1 else 0,
                (verdictBeyond names inner name).name ++ ['\n'], []⟩
  malformed : ∀ names fault, e.sanctioned.2 = .ok names → Screen.ofPattern e.source = .error fault →
    (∃ t, fault = .malformedClause t) ∧
      e.PassesOn outcome bindings fault ∧
      (∀ list, (e.screenStream list).2 = .error fault) ∧
      ∀ name, (e.check input name).2 = .ok ⟨1, [], Command.complaintOf fault⟩
  unloadable : ∀ fault, e.sanctioned.2 = .error fault →
    e.PassesOn outcome bindings fault ∧
      ∀ name, (e.check input name).2 =
        if Command.isTold fault then .ok ⟨1, [], Command.complaintOf fault⟩ else .error fault

/-! ## Screens -/

theorem verdict_sanctioning (names : NameSet) (inner : Screen) (name : Text) :
    (Screen.sanctioning names inner).verdict (.ofName name) = verdictBeyond names inner name :=
  rfl

theorem Screening.Screen.malformedClause_of_ofPattern {source : Text} {fault : Fault}
    (h : Screen.ofPattern source = .error fault) : ∃ t, fault = .malformedClause t := by
  have hbeyond : Screen.ofPatternBeyond .empty source = .error fault := by
    rw [ofPatternBeyond, h]
  exact malformedClause_of_ofPatternBeyond hbeyond

theorem Screening.NameSet.ofList_eq {names : NameSet} {list : List Text}
    (h : ∀ name, name ∈ list ↔ name ∈ names) : NameSet.ofList list = names :=
  eq_of_mem_iff fun name => by
    rw [ofList, mem_insertAll, h]
    exact or_iff_left List.not_mem_nil

theorem Guard.Probes.backing_of_supported {probes : Probes} (h : probes.supported = true) :
    ∃ backing, probes.backing = .ok backing ∧ backing.Enforces := by
  unfold backing
  split
  · exact ⟨_, rfl, Backing.enforces_hook⟩
  · split
    · exact ⟨_, rfl, Backing.enforces_streams⟩
    · simp_all [supported]

/-- The pattern property is read as it stands if there are no blanks around it. -/
theorem Configuration.Settings.ofProperties_eq {properties : Properties} {clause : Text}
    (hclause : properties.lookup patternProperty = some (.text clause))
    (htrimmed : Text.trim clause = clause) (hpresent : Text.isBlank clause = false) :
    ofProperties properties =
      .ok ⟨((properties.lookup validateProperty).getD .null).isEnabled, some clause⟩ := by
  simp [ofProperties, patternOf, hclause, htrimmed, hpresent]

theorem Configuration.streamScreen_validating (clause : Option Text) (names : List Text)
    (backing : Guard.Backing) :
    (streamScreen ⟨true, clause⟩ (some names) (.ok backing)).2 =
      (Screen.ofPattern (AcceptPattern.ofClauses [clause])).map fun inner =>
        some (.sanctioning (.ofList names) inner) := by
  simp only [streamScreen, Bool.not_true, Bool.false_eq_true, if_false]
  rw [Reported.andThen_of_ok rfl]
  cases Screen.ofPattern (AcceptPattern.ofClauses [clause]) with
  | error fault => rfl
  | ok inner => rfl

theorem Configuration.screenBeyond_of_sanctioned {contributors : Except Fault (List Contributor)}
    {names : NameSet}
    (h : ((Reported.ofResult contributors).andThen Contributor.merge).2 = .ok names)
    (clause : Option Text) :
    (screenBeyond clause contributors).2 =
      Screen.ofPatternBeyond names (AcceptPattern.ofClauses [clause]) := by
  obtain ⟨found, hfound, hmerge⟩ := Reported.andThen_eq_ok_iff.1 h
  exact (Reported.andThen_of_ok hfound).trans (Reported.andThen_of_ok hmerge)

theorem Configuration.screenBeyond_of_unloadable {contributors : Except Fault (List Contributor)}
    {fault : Fault}
    (h : ((Reported.ofResult contributors).andThen Contributor.merge).2 = .error fault)
    (clause : Option Text) : (screenBeyond clause contributors).2 = .error fault := by
  rcases Reported.andThen_eq_error_iff.1 h with hdiscover | ⟨found, hfound, hmerge⟩
  · exact Reported.andThen_of_error hdiscover
  · exact (Reported.andThen_of_ok hfound).trans (Reported.andThen_of_error hmerge)

theorem Command.asLines_singleton (t : Text) : asLines [t] = t ++ ['\n'] :=
  List.flatMap_singleton _ _

theorem Command.checkClass_eq (name : Text) (clause : Option Text)
    (contributors : Except Fault (List Contributor)) :
    (checkClass name clause contributors).2 =
      match (Configuration.screenBeyond clause contributors).2 with
      | .ok screen => .ok (verdictOutput screen name)
      | .error fault => if isTold fault then .ok ⟨1, [], complaintOf fault⟩ else .error fault := by
  unfold checkClass
  rcases Configuration.screenBeyond clause contributors with ⟨notices, fault | screen⟩ <;> rfl

namespace Environment

variable {e : Environment} {names : NameSet} {inner : Screen} {fault : Fault}

/-! ## The three ways -/

theorem ofProperties_switched (e : Environment) :
    Settings.ofProperties ((Configuration.validateProperty, e.switch) :: e.properties) =
      .ok ⟨true, some e.clause⟩ := by
  have hother : (Configuration.patternProperty == Configuration.validateProperty) = false := by
    decide
  have hclause : List.lookup Configuration.patternProperty
      ((Configuration.validateProperty, e.switch) :: e.properties) = some (.text e.clause) := by
    rw [List.lookup_cons, hother]
    exact e.configured
  rw [Settings.ofProperties_eq hclause e.trimmed e.present, List.lookup_cons_self,
    Option.getD_some, e.enables]

theorem screenBeyond_of_sanctioned (h : e.sanctioned.2 = .ok names) (clause : Option Text) :
    (Configuration.screenBeyond clause e.contributors).2 =
      Screen.ofPatternBeyond names (AcceptPattern.ofClauses [clause]) :=
  Configuration.screenBeyond_of_sanctioned h clause

theorem screenBeyond_of_unloadable (h : e.sanctioned.2 = .error fault) (clause : Option Text) :
    (Configuration.screenBeyond clause e.contributors).2 = .error fault :=
  Configuration.screenBeyond_of_unloadable h clause

/-- The first attempt is that of a screener which makes its screen of the clause. -/
theorem screenProcess_eq (e : Environment) (outcome : Phase) (bindings : Variables) :
    ∃ s : Screener, e.screenProcess outcome bindings = .ok (s.attempt e.circumstances {} bindings) ∧
      s.origin.make e.circumstances =
        Configuration.screenBeyond (some e.clause) e.contributors := by
  obtain ⟨validates, hsettings⟩ : ∃ validates,
      Settings.ofProperties e.properties = .ok ⟨validates, some e.clause⟩ :=
    ⟨_, Settings.ofProperties_eq e.configured e.trimmed e.present⟩
  obtain ⟨backing, hbacking, -⟩ := Probes.backing_of_supported e.supported
  refine ⟨⟨.settings ⟨validates, some e.clause⟩ .discovered, outcome⟩, ?_, ?_⟩
  · rw [screenProcess, hsettings]
    rfl
  · -- With a backing the settings validate, so their pattern is active.
    simp [Origin.make, Contributor.Supply.contributors, circumstances, hbacking,
      Configuration.validating, Settings.activePattern]

theorem ordinary_circumstances (e : Environment) : e.circumstances.Ordinary :=
  Configuration.ordinary_of_discover e.probes e.arrays e.entries e.permitted

theorem orderly_fresh : ({} : Guard.Process).state.Orderly := Guard.State.Orderly.initial

theorem screenProcess_of_ok (h : (Configuration.screenBeyond (some e.clause) e.contributors).2 =
    .ok inner) (outcome : Phase) (bindings : Variables) :
    ∃ done, e.screenProcess outcome bindings = .ok done ∧ done.reported.2 = .ok true ∧
      done.site.process.state.screen = some inner := by
  obtain ⟨s, hattempt, hmake⟩ := e.screenProcess_eq outcome bindings
  obtain ⟨backing, hbacking, henforces⟩ := Probes.backing_of_supported e.supported
  have hgives : s.Gives e.circumstances backing inner :=
    ⟨hbacking, (congrArg Prod.snd hmake).trans h, henforces⟩
  obtain ⟨hreported, hprocess⟩ :=
    Screener.attempt_of_gives orderly_fresh e.ordinary_circumstances rfl hgives bindings
  exact ⟨_, hattempt, hreported, by rw [hprocess]; rfl⟩

theorem passesOn_of_error
    (h : (Configuration.screenBeyond (some e.clause) e.contributors).2 = .error fault)
    (outcome : Phase) (bindings : Variables) : e.PassesOn outcome bindings fault := by
  obtain ⟨s, hattempt, hmake⟩ := e.screenProcess_eq outcome bindings
  obtain ⟨backing, hbacking, -⟩ := Probes.backing_of_supported e.supported
  have hreported : (s.attempt e.circumstances {} bindings).reported.2 = .error fault :=
    Screener.reported_of_made_error orderly_fresh e.ordinary_circumstances hbacking
      ((congrArg Prod.snd hmake).trans h)
  have hspares : s.Spares e.circumstances {} bindings :=
    Screener.spares_attempt orderly_fresh e.ordinary_circumstances (by simp [hreported])
  exact ⟨_, hattempt, hreported, hspares.screen⟩

theorem screenStream_eq (e : Environment) (list : List Text) :
    (e.screenStream list).2 =
      (Screen.ofPattern e.source).map fun inner => some (.sanctioning (.ofList list) inner) := by
  obtain ⟨backing, hbacking, -⟩ := Probes.backing_of_supported e.supported
  rw [screenStream, ofProperties_switched, Reported.andThen_of_ok rfl, hbacking]
  exact Configuration.streamScreen_validating _ list backing

theorem check_eq (e : Environment) (input name : Text) :
    (e.check input name).2 =
      match (Configuration.screenBeyond (some e.clause) e.contributors).2 with
      | .ok screen => .ok (Command.verdictOutput screen name)
      | .error fault =>
        if Command.isTold fault then .ok ⟨1, [], Command.complaintOf fault⟩ else .error fault :=
  (Reported.andThen_of_ok rfl).trans (Command.checkClass_eq name _ _)

/-- Whichever way a clause is taken, the screen that comes of it allows what the contributors
sanction and decides the rest by the pattern that is printed for the clause. -/
theorem screens_agree (e : Environment) (outcome : Phase) (bindings : Variables) (input : Text) :
    e.Agrees outcome bindings input where
  printed := by
    have hprint : (e.print input).2 = .ok ⟨0, Command.asLines [e.source], []⟩ := rfl
    rw [hprint, Command.asLines_singleton]
  decided := by
    intro names inner hnames hpattern
    have hscreen : (Configuration.screenBeyond (some e.clause) e.contributors).2 =
        .ok (.sanctioning names inner) := by
      rw [screenBeyond_of_sanctioned hnames, Screen.ofPatternBeyond, ← source, hpattern]
    obtain ⟨done, hdone, hreported, hinstalled⟩ := screenProcess_of_ok hscreen outcome bindings
    refine ⟨done, _, hdone, hreported, hinstalled, fun list hlist => ?_⟩
    refine ⟨.sanctioning names inner, ?_, fun name =>
      ⟨verdict_sanctioning names inner name, verdict_sanctioning names inner name, ?_⟩⟩
    · rw [screenStream_eq, hpattern, NameSet.ofList_eq hlist]
      rfl
    · rw [check_eq, hscreen]
      simp only [Command.verdictOutput, Command.asLines_singleton]
      rfl
  malformed := by
    intro names fault hnames hpattern
    have hscreen : (Configuration.screenBeyond (some e.clause) e.contributors).2 =
        .error fault := by
      rw [screenBeyond_of_sanctioned hnames, Screen.ofPatternBeyond, ← source, hpattern]
    obtain ⟨t, rfl⟩ := Screen.malformedClause_of_ofPattern hpattern
    refine ⟨⟨t, rfl⟩, passesOn_of_error hscreen outcome bindings, fun list => ?_,
      fun name => ?_⟩
    · rw [screenStream_eq, hpattern]
      rfl
    · rw [check_eq, hscreen]
      rfl
  unloadable := by
    intro fault hfault
    have hscreen := screenBeyond_of_unloadable hfault (some e.clause)
    refine ⟨passesOn_of_error hscreen outcome bindings, fun name => ?_⟩
    rw [check_eq, hscreen]

def bringingOne : Contributor := ⟨"OneSanctionedClass".toList, .ok ["a.b".toList]⟩

/-- Streams are guarded by a clause that rejects the classes of a module, one of which a registered
contributor sanctions. -/
def rejectingModule : Environment where
  probes := ⟨false, true⟩
  arrays := false
  entries := [⟨"one".toList, .ok ⟨.registered 0, .ok bringingOne⟩⟩]
  permitted := true
  properties := [(Configuration.patternProperty, .text "!a.*".toList)]
  switch := .flag true
  clause := "!a.*".toList
  supported := rfl
  trimmed := by decide +kernel
  present := by decide +kernel
  configured := rfl
  enables := rfl

def sanctionedNames : List Text := AcceptList.classNames Resource.ownClassList ++ ["a.b".toList]

theorem not_mem_sanctionedNames : element "a.c".toList ∉ sanctionedNames := by decide +kernel

theorem sanctioned_rejectingModule :
    ∃ names, rejectingModule.sanctioned.2 = .ok names ∧
      ∀ name, name ∈ sanctionedNames ↔ name ∈ names := by
  have hcontributors : rejectingModule.contributors = .ok [Contributor.core, bringingOne] := rfl
  let readings : List Contributor.Reading :=
    [⟨Contributor.core, _, Contributor.acceptList_core⟩, ⟨bringingOne, _, rfl⟩]
  obtain ⟨names, hmerge⟩ := Contributor.merge_readings readings
  have hnames : (Contributor.merge (readings.map Contributor.Reading.contributor)).2 = .ok names :=
    congrArg Prod.snd hmerge
  refine ⟨names, (Reported.andThen_of_ok hcontributors).trans hnames, fun name => ?_⟩
  rw [Contributor.mem_of_merge_readings hnames]
  simp [readings, sanctionedNames]

theorem rejects_rejectingModule : ∃ p, Pattern.read rejectingModule.source = .ok p ∧
    p.verdict (.ofName "a.c".toList) = .rejected := by
  have htexts : Screening.appendedTexts [some rejectingModule.clause] = ["!a.*".toList] := by
    decide +kernel
  have hread : (Screening.Clause.read? "!a.*".toList).isNone = false := by decide +kernel
  have helement : Screening.Candidate.elementName (.ofName "a.c".toList) = some "a.c".toList := by
    decide +kernel
  have hrejected : Screening.sanctionedVerdict [some rejectingModule.clause] "a.c".toList =
      .rejected := by
    decide +kernel
  obtain ⟨p, hp, hdecides⟩ := (Screening.closes_ofClauses [some rejectingModule.clause]).decides (by
    rintro ⟨s, hs, hmalformed⟩
    rw [Screening.read_appendedText_iff hs] at hmalformed
    rw [htexts, List.mem_singleton] at hs
    simp [← hs, hmalformed] at hread)
  exact ⟨p, hp, (hdecides _ _ helement).1.trans hrejected⟩

theorem screens_agree_rejectingModule :
    ∃ done installed given, rejectingModule.screenProcess .unset .empty = .ok done ∧
      done.site.process.state.screen = some installed ∧
      (rejectingModule.screenStream sanctionedNames).2 = .ok (some given) ∧
      (installed.verdict (.ofName "a.b".toList) = .allowed ∧
        given.verdict (.ofName "a.b".toList) = .allowed ∧
        (rejectingModule.check [] "a.b".toList).2 = .ok ⟨0, "ALLOWED".toList ++ ['\n'], []⟩) ∧
      installed.verdict (.ofName "a.c".toList) = .rejected ∧
        given.verdict (.ofName "a.c".toList) = .rejected ∧
        (rejectingModule.check [] "a.c".toList).2 = .ok ⟨1, "REJECTED".toList ++ ['\n'], []⟩ := by
  obtain ⟨names, hnames, hsame⟩ := sanctioned_rejectingModule
  obtain ⟨p, hp, hrejects⟩ := rejects_rejectingModule
  have hpattern : Screen.ofPattern rejectingModule.source = .ok (.pattern p) := by
    rw [Screen.ofPattern, hp]
  have hallowed : verdictBeyond names (.pattern p) "a.b".toList = .allowed := by
    have hmem : element "a.b".toList ∈ names :=
      (hsame _).1 (List.mem_append_right _ (by decide +kernel))
    rw [verdictBeyond, if_pos (NameSet.contains_eq_true_iff.2 hmem)]
  have hrejected : verdictBeyond names (.pattern p) "a.c".toList = .rejected := by
    have hnot : element "a.c".toList ∉ names := mt (hsame _).2 not_mem_sanctionedNames
    rw [verdictBeyond, if_neg (mt NameSet.contains_eq_true_iff.1 hnot)]
    exact hrejects
  obtain ⟨done, installed, hdone, -, hinstalled, hlists⟩ :=
    (screens_agree rejectingModule .unset .empty []).decided names _ hnames hpattern
  obtain ⟨given, hgiven, hverdicts⟩ := hlists sanctionedNames hsame
  obtain ⟨hb, hb', hbCheck⟩ := hverdicts "a.b".toList
  obtain ⟨hc, hc', hcCheck⟩ := hverdicts "a.c".toList
  rw [hallowed] at hb hb' hbCheck
  rw [hrejected] at hc hc' hcCheck
  exact ⟨done, installed, given, hdone, hinstalled, hgiven, ⟨hb, hb', hbCheck⟩, hc, hc', hcCheck⟩

end Environment

end Gatekeeper
