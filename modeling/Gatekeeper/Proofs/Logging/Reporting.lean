import Gatekeeper.Proofs.Logging.Delivery
import Gatekeeper.Proofs.Redaction.Notice

/-!
# Records of notices

A filter reports what it hides before it hands a record on. The report is logged like any other
record, in the same tree, and so it may meet the same filters again. Main statement: where all
filters go by the standard dictionary, a notice is printed as it is by every handler that it
reaches, and no notice is made on its way (`announces_after`). So the calls of a log nest no deeper
than to the notices of its record.
-/

namespace Gatekeeper.Logging

open Redaction (Dictionary IsOption IsReport Redactor hiddenFound)

variable {r : Record} {t u : Text} {n : Notice} {report report' : Notice → Output}

/-! ## Templates that end in an argument -/

theorem elements_append (hu : '%' ∉ u) (t : Text) :
    elements (u ++ t) = u.map .literal ++ elements t := by
  induction u with
  | nil => rfl
  | cons c u ih =>
    obtain ⟨hc, hu⟩ := List.ne_and_not_mem_of_not_mem_cons hu
    rw [List.cons_append, elements, if_neg (Ne.symm hc), ih hu, List.map_cons, List.cons_append]

theorem fillAll_literals (s : Supply) (u : Text) (elements : List Element) :
    fillAll s (u.map .literal ++ elements) = (fillAll s elements).map (u ++ ·) := by
  induction u with
  | nil => cases h : fillAll s elements <;> simp [h, Except.map]
  | cons c u ih =>
    rw [List.map_cons, List.cons_append, fillAll, ih]
    cases fillAll s elements <;> rfl

theorem elements_shown : elements "%s".toList = [.form ⟨none, [], .unset, .unset, some 's'⟩] := by
  decide +kernel

theorem convert_shown (t : Text) : (Layout.of [] none none).convert 's' (.text t) = .ok t := by
  have hroom : (Layout.of [] none none).width < roomLimit := by decide
  have hcell : (Layout.of [] none none).cell 's' (.text t) = .ok ⟨[], t, false⟩ := rfl
  have hpad : (Layout.of [] none none).pad ⟨[], t, false⟩ = t := by
    simp [Layout.pad, Layout.of, Layout.has]
  simp only [Layout.convert, hcell, hroom, hpad, if_true]

/-- A text that is the only argument is written as it is, whatever it holds. -/
theorem fill_shown (hu : '%' ∉ u) (t : Text) :
    fill (u ++ "%s".toList) [.text t] = .ok (u ++ t) := by
  -- A text is no record, so it is left for the form to take.
  have hsupply : Supply.ofArguments [.text t] = ⟨none, [.text t]⟩ := rfl
  have hform : Form.fill ⟨none, [], .unset, .unset, some 's'⟩ ⟨none, [.text t]⟩ =
      .ok (t, ⟨none, []⟩) := by
    simp only [Form.fill, Supply.select, Supply.amount, Supply.next, bind, Except.bind]
    rw [convert_shown]
  have hlast : fillAll ⟨none, [.text t]⟩ [.form ⟨none, [], .unset, .unset, some 's'⟩] = .ok t := by
    simp [fillAll, hform, Supply.isSpent, Except.map]
  rw [fill, elements_append hu, fillAll_literals, elements_shown, hsupply, hlast]
  rfl

/-! ## Notices as records -/

/-- The record of a notice. The name of an option is an argument of the record. -/
def Record.ofNotice : Notice → Record
  | .argumentRedacted option => ⟨.text "Redacting argument of option %s".toList, [.text option]⟩
  | n => .ofText n.message

theorem Record.text_ofNotice (n : Notice) : (ofNotice n).text = .ok n.message := by
  cases n with
  | argumentRedacted option =>
    have htemplate : "Redacting argument of option %s".toList =
        "Redacting argument of option ".toList ++ "%s".toList := by decide +kernel
    have hplain : '%' ∉ "Redacting argument of option ".toList := by decide +kernel
    have hfill := fill_shown hplain option
    rw [← htemplate] at hfill
    exact hfill
  | _ => rfl

/-! ## Delivery with notices -/

/-- One output behind another, unless a fault ended the first. -/
def Output.followedBy (o next : Output) : Output :=
  match o.result with
  | .error fault => ⟨o.printed, .error fault⟩
  | .ok () => ⟨o.printed ++ next.printed, next.result⟩

def reportAll (report : Notice → Output) (notices : List Notice) (next : Output) : Output :=
  notices.foldr (fun n o => (report n).followedBy o) next

/-- A record passes filters. Each filter reports what it hides, and then hands the record on. -/
def Record.pass (report : Notice → Output) :
    List Redactor → Record → (Record → Output) → Output
  | [], r, next => next r
  | f :: filters, r, next =>
    match r.textToRedact with
    | .error fault => ⟨[], .error fault⟩
    | .ok t =>
      reportAll report (f.notices t) (pass report filters (.ofText (f.redact t)) next)

namespace Tree

def emitReporting (tree : Tree) (report : Notice → Output) (r : Record) : List Nat → Output
  | [] => .silent
  | handler :: rest =>
    r.pass report (tree.filtersOf handler) fun r =>
      (tree.emitReporting report r rest).after (r.print handler)

/-- A log call, where `report` is what becomes of the notices of filters. -/
def logReporting (tree : Tree) (report : Notice → Output) (name : Text) (r : Record) : Output :=
  r.pass report (tree.get name).filters fun r => tree.emitReporting report r (tree.reached name)

/-- A log call that logs the notices of filters, these their own notices and so on, in calls that
nest up to a depth; `deeper` is what becomes of the notices of the innermost. -/
def logNested (tree : Tree) (deeper : Notice → Output) : Nat → Text → Record → Output
  | 0 => tree.logReporting deeper
  | depth + 1 => tree.logReporting fun n =>
      (tree.add n.channel).logNested deeper depth n.channel (.ofNotice n)

end Tree

/-! ## Without notices -/

theorem reportAll_silent (notices : List Notice) (next : Output) :
    reportAll (fun _ => .silent) notices next = next := by
  induction notices with
  | nil => rfl
  | cons n notices ih => exact ih

theorem Record.pass_silent (filters : List Redactor) (r : Record) (next : Record → Output) :
    r.pass (fun _ => .silent) filters next =
      match r.redactedAll filters with
      | .error fault => ⟨[], .error fault⟩
      | .ok r => next r := by
  induction filters generalizing r with
  | nil => rfl
  | cons f filters ih =>
    rw [pass, redactedAll, redacted]
    cases r.textToRedact with
    | error fault => rfl
    | ok t => simp only [reportAll_silent, ih]

namespace Tree

theorem emitReporting_silent (tree : Tree) (r : Record) (ids : List Nat) :
    tree.emitReporting (fun _ => .silent) r ids = tree.emit r ids := by
  induction ids generalizing r with
  | nil => rfl
  | cons id ids ih =>
    rw [emitReporting, emit, Record.pass_silent]
    cases r.redactedAll (tree.filtersOf id) with
    | error fault => rfl
    | ok r => exact congrArg (Output.after (r.print id)) (ih r)

/-- If notices are dropped, a log call is the delivery of its record. -/
theorem logReporting_silent (tree : Tree) (name : Text) (r : Record) :
    tree.logReporting (fun _ => .silent) name r = tree.log name r := by
  rw [logReporting, log, Record.pass_silent]
  cases r.redactedAll (tree.get name).filters with
  | error fault => rfl
  | ok r => exact tree.emitReporting_silent r (tree.reached name)

end Tree

/-! ## What may be reported -/

theorem reportAll_congr {notices : List Notice} (h : ∀ n ∈ notices, report n = report' n)
    (next : Output) : reportAll report notices next = reportAll report' notices next := by
  induction notices with
  | nil => rfl
  | cons n notices ih =>
    have hrest := ih fun m hm => h m (by simp [hm])
    have hstep : ∀ report, reportAll report (n :: notices) next =
        (report n).followedBy (reportAll report notices next) := fun _ => rfl
    rw [hstep, hstep, h n (by simp), hrest]

theorem Record.pass_congr (h : ∀ n, IsReport n → report n = report' n) (filters : List Redactor)
    (r : Record) (next : Record → Output) :
    r.pass report filters next = r.pass report' filters next := by
  induction filters generalizing r with
  | nil => rfl
  | cons f filters ih =>
    rw [pass, pass]
    cases r.textToRedact with
    | error fault => rfl
    | ok t =>
      simp only [ih]
      exact reportAll_congr (fun n hn => h n (Redactor.isReport_of_mem_notices hn)) _

namespace Tree

variable {tree : Tree}

theorem emitReporting_congr (h : ∀ n, IsReport n → report n = report' n) (r : Record)
    (ids : List Nat) : tree.emitReporting report r ids = tree.emitReporting report' r ids := by
  induction ids generalizing r with
  | nil => rfl
  | cons id ids ih => simp only [emitReporting, ih, Record.pass_congr h]

theorem logReporting_congr (h : ∀ n, IsReport n → report n = report' n) (name : Text)
    (r : Record) : tree.logReporting report name r = tree.logReporting report' name r := by
  simp only [logReporting, emitReporting_congr h, Record.pass_congr h]

end Tree

/-! ## Records that filters leave alone -/

theorem Record.textToRedact_of_text (hr : r.text = .ok t) : r.textToRedact = .ok t := by
  simp only [textToRedact, hr]

theorem Record.print_of_text (hr : r.text = .ok t) (id : Nat) :
    r.print id = some (id, t ++ ['\n']) := by
  simp only [print, hr]

/-- Behind filters that leave its text alone, a record has its text still. -/
theorem Record.exists_pass_eq {filters : List Redactor} (hr : r.text = .ok t)
    (h : ∀ f ∈ filters, f.LeavesAlone t) (report : Notice → Output) :
    ∃ r' : Record, r'.text = .ok t ∧ ∀ next, r.pass report filters next = next r' := by
  induction filters generalizing r with
  | nil => exact ⟨r, hr, fun _ => rfl⟩
  | cons f filters ih =>
    obtain ⟨hredact, hnotices⟩ := h f (by simp)
    obtain ⟨r', hr', hpass⟩ := ih (text_ofText t) fun g hg => h g (by simp [hg])
    refine ⟨r', hr', fun next => ?_⟩
    rw [pass, textToRedact_of_text hr]
    simp only [hredact, hnotices, reportAll, List.foldr_nil, hpass]

namespace Tree

variable {tree : Tree}

theorem emitReporting_of_leavesAlone (hr : r.text = .ok t)
    (h : ∀ id, ∀ f ∈ tree.filtersOf id, f.LeavesAlone t) (report : Notice → Output)
    (ids : List Nat) :
    tree.emitReporting report r ids = ⟨ids.map fun id => (id, t ++ ['\n']), .ok ()⟩ := by
  induction ids generalizing r with
  | nil => rfl
  | cons id ids ih =>
    obtain ⟨r', hr', hpass⟩ := Record.exists_pass_eq hr (h id) report
    rw [emitReporting, hpass, ih hr', Record.print_of_text hr']
    rfl

/-! ## The filters of a tree -/

/-- Whether all filters on loggers and handlers are of a kind. -/
structure FiltersAre (P : Redactor → Prop) (tree : Tree) : Prop where
  loggers : ∀ name, ∀ f ∈ (tree.get name).filters, P f
  installed : ∀ entry ∈ tree.installed, P entry.2

variable {P : Redactor → Prop}

theorem FiltersAre.handlers (h : tree.FiltersAre P) (id : Nat) : ∀ f ∈ tree.filtersOf id, P f := by
  intro f hf
  obtain ⟨entry, hentry, rfl⟩ := List.mem_map.1 hf
  exact h.installed entry (List.mem_filter.1 hentry).1

theorem FiltersAre.add (h : tree.FiltersAre P) (name : Text) : (tree.add name).FiltersAre P where
  loggers := by
    intro other
    rw [filters_add]
    exact h.loggers other
  installed := by
    rw [installed_add]
    exact h.installed

theorem filtersAre_empty : Tree.empty.FiltersAre P where
  loggers := fun _ _ hf => absurd hf List.not_mem_nil
  installed := fun _ hentry => absurd hentry List.not_mem_nil

end Tree

/-- Whether an action installs filters of a kind only. -/
def Action.Installs (P : Redactor → Prop) : Action → Prop
  | .install _ redactor => P redactor
  | _ => True

/-- An action installs no two redactors. -/
theorem Action.Installs.exists_uses {P : Redactor → Prop} {a : Action} (h : a.Installs P) :
    ∃ f, a.Uses f ∧ (a.target? ≠ none → P f) := by
  cases a with
  | install logger redactor => exact ⟨redactor, rfl, fun _ => h⟩
  | _ => exact ⟨{}, trivial, fun htarget => absurd rfl htarget⟩

namespace Tree

variable {tree : Tree} {P : Redactor → Prop} {a : Action} {actions : List Action}

theorem FiltersAre.perform (h : tree.FiltersAre P) (ha : a.Installs P) :
    (tree.perform a).1.FiltersAre P := by
  obtain ⟨redactor, huses, htarget⟩ := ha.exists_uses
  constructor
  · intro name f hf
    rw [filters_perform huses, List.mem_append] at hf
    rcases hf with hf | hf
    · exact h.loggers name f hf
    · split at hf
      · next hname =>
        obtain rfl : f = redactor := List.mem_singleton.1 hf
        exact htarget (by simp [hname])
      · exact absurd hf List.not_mem_nil
  · intro entry hentry
    rw [installed_perform huses, List.mem_append] at hentry
    rcases hentry with hentry | hentry
    · exact h.installed entry hentry
    · obtain ⟨id, hid, rfl⟩ := List.mem_map.1 hentry
      refine htarget fun hnone => ?_
      simp [hnone] at hid

theorem FiltersAre.after (h : tree.FiltersAre P) (hactions : ∀ a ∈ actions, a.Installs P) :
    (tree.after actions).FiltersAre P := by
  induction actions generalizing tree with
  | nil => exact h
  | cons a actions ih =>
    exact ih (h.perform (hactions a (by simp))) fun b hb => hactions b (by simp [hb])

/-! ## Notices on their way -/

/-- A notice is printed as it is by every handler that it reaches. -/
def announce (tree : Tree) (n : Notice) : Output :=
  ⟨((tree.add n.channel).reached n.channel).map fun id => (id, n.message ++ ['\n']), .ok ()⟩

/-- Whether the notices of filters are printed as they are, and are the only notices: at any depth
of calls, whatever would become of notices that nest deeper. -/
def Announces (tree : Tree) : Prop :=
  ∀ (deeper : Notice → Output) (depth : Nat) (name : Text) (r : Record),
    tree.logNested deeper (depth + 1) name r = tree.logReporting tree.announce name r

theorem logReporting_ofNotice (h : tree.FiltersAre Redactor.IsStandard) (hn : IsReport n)
    (report : Notice → Output) :
    (tree.add n.channel).logReporting report n.channel (.ofNotice n) = tree.announce n := by
  have hleaves : ∀ f : Redactor, f.IsStandard → f.LeavesAlone n.message := by
    obtain ⟨o, ho, rfl⟩ := hn
    exact fun f hf => hf.leavesAlone ho
  have hadd := h.add n.channel
  have hloggers : ∀ f ∈ ((tree.add n.channel).get n.channel).filters, f.LeavesAlone n.message :=
    fun f hf => hleaves f (hadd.loggers n.channel f hf)
  have hhandlers : ∀ id, ∀ f ∈ (tree.add n.channel).filtersOf id, f.LeavesAlone n.message :=
    fun id f hf => hleaves f (hadd.handlers id f hf)
  obtain ⟨r, hr, hpass⟩ := Record.exists_pass_eq (Record.text_ofNotice n) hloggers report
  rw [logReporting, hpass, emitReporting_of_leavesAlone hr hhandlers, announce]

theorem FiltersAre.announces (h : tree.FiltersAre Redactor.IsStandard) : tree.Announces := by
  intro deeper depth name r
  -- It is enough to look at what can be reported: elsewhere the two deliveries may differ.
  refine logReporting_congr (fun n hn => ?_) name r
  cases depth with
  | zero => exact logReporting_ofNotice h hn _
  | succ depth => exact logReporting_ofNotice h hn _

/-- A notice about a match in any line is left alone by redactions with the standard dictionary, and
after any actions that install only such redactions the notices in a log are printed as they are,
without another notice about them. -/
theorem announces_after {start : Tree} (hstart : start.FiltersAre Redactor.IsStandard)
    (hactions : ∀ a ∈ actions, a.Installs Redactor.IsStandard) :
    (∀ token line, ∀ f ∈ hiddenFound Dictionary.standard.isSensitive line,
      Redactor.LeavesAlone ⟨token, .standard, .scanning⟩
        (Notice.argumentRedacted f.pair.option).message) ∧
      (start.after actions).Announces := by
  refine ⟨fun token line f hf => ?_, (hstart.after hactions).announces⟩
  have hoption : IsOption f.pair.option := Redaction.isOption_of_found (List.mem_filter.1 hf).1
  have hstandard : Redactor.IsStandard ⟨token, .standard, .scanning⟩ := ⟨rfl, rfl⟩
  exact hstandard.leavesAlone hoption

/-- The filter on the root and on its handler gets what it reports itself. -/
def rootFiltered : List Action := [.addHandler [] 0, .install [] {}]

theorem announces_after_rootFiltered :
    Tree.empty.FiltersAre Redactor.IsStandard ∧
      (∀ a ∈ rootFiltered, a.Installs Redactor.IsStandard) ∧
      (∃ f ∈ hiddenFound Dictionary.standard.isSensitive "--password=x".toList,
        Redactor.LeavesAlone {} (Notice.argumentRedacted f.pair.option).message) ∧
      ∀ deeper depth, ((Tree.empty.after rootFiltered).logNested deeper (depth + 1) []
          ⟨.text "--password=%s".toList, [.text "x".toList]⟩).printed =
        [(0, "Redacting argument of option password\n".toList),
          (0, "Redacting argument of option password\n".toList),
          (0, "--password=redacted\n".toList)] := by
  have hstart : Tree.empty.FiltersAre Redactor.IsStandard := filtersAre_empty
  have hactions : ∀ a ∈ rootFiltered, a.Installs Redactor.IsStandard := by
    simp [rootFiltered, Action.Installs, Redactor.IsStandard]
  obtain ⟨hleaves, hannounces⟩ := announces_after hstart hactions
  refine ⟨hstart, hactions, ?_, fun deeper depth => ?_⟩
  · let p : Redaction.Pair := ⟨.hyphens 0, "password".toList, some ⟨['='], ['x']⟩⟩
    have hf : ⟨p, 0⟩ ∈ hiddenFound Dictionary.standard.isSensitive "--password=x".toList := by
      decide +kernel
    exact ⟨⟨p, 0⟩, hf, hleaves _ _ _ hf⟩
  · rw [hannounces deeper depth]
    decide +kernel

end Tree
end Gatekeeper.Logging
