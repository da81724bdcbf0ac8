import Gatekeeper.Proofs.Logging.History
import Gatekeeper.Proofs.Redaction.Stability
import Mathlib.Tactic.TFAE

/-!
# Records that are filtered again

A filter is installed on a logger and on the handlers of the logger. It gets a record of that logger
at least twice, and a record that is handed on from another logger once less. Main statement: both
are printed alike, whatever the record and the dictionary, just if the token stands for an argument
(`stands_tfae`). That is about the tokens which `stands_of_probes` is about.
-/

namespace Gatekeeper.Logging

open Redaction (Dictionary Redactor Stands Stops stands_of_probes startsPair stops_cons)

variable {f : Redactor} {r r' : Record} {token : Text}

/-- A filter that scans a line for the options of a dictionary. -/
def scanner (token : Text) (d : Dictionary) : Redactor := ⟨token, d, .scanning⟩

/-! ## One record -/

namespace Record

theorem redactedAll_append (r : Record) (fs gs : List Redactor) :
    r.redactedAll (fs ++ gs) =
      match r.redactedAll fs with
      | .error fault => .error fault
      | .ok r => r.redactedAll gs := by
  induction fs generalizing r with
  | nil => rfl
  | cons f fs ih =>
    simp only [List.cons_append, redactedAll]
    cases r.redacted f with
    | error fault => rfl
    | ok r => exact ih r

theorem redacted_ofText (t : Text) : (ofText t).redacted f = .ok (ofText (f.redact t)) := rfl

theorem redacted_redacted (hf : ∀ t, f.redact (f.redact t) = f.redact t)
    (h : r.redacted f = .ok r') : r'.redacted f = .ok r' := by
  cases htext : r.textToRedact with
  | error fault => simp [redacted, htext] at h
  | ok t =>
    obtain rfl : ofText (f.redact t) = r' := by simpa [redacted, htext] using h
    rw [redacted_ofText, hf]

theorem redactedAll_of_redacted {n : Nat} (h : r.redacted f = .ok r) :
    r.redactedAll (List.replicate n f) = .ok r := by
  induction n with
  | zero => rfl
  | succ n ih => simpa [List.replicate_succ, redactedAll, h] using ih

end Record

/-- A record that goes through a filter again and again is left as the first pass left it. -/
def SteadyRecords (token : Text) : Prop :=
  ∀ (d : Dictionary) (r : Record) (n : Nat),
    r.redactedAll (List.replicate (n + 1) (scanner token d)) = r.redacted (scanner token d)

theorem steadyRecords_of_stands (h : Stands token) : SteadyRecords token := by
  intro d r n
  have hredact : ∀ t, (scanner token d).redact ((scanner token d).redact t) =
      (scanner token d).redact t := fun t => h.stableOn d.isSensitive t
  rw [List.replicate_succ, Record.redactedAll]
  cases hr : r.redacted (scanner token d) with
  | error fault => rfl
  | ok r' => exact Record.redactedAll_of_redacted (Record.redacted_redacted hredact hr)

/-! ## Loggers -/

namespace Tree

variable {tree : Tree} {name : Text} {id : Nat} {rest : List Nat}

theorem lineage_of_parent {above : Text} (hparent : (tree.get name).parent = above)
    (hshorter : above.length < name.length) : tree.lineage name = name :: tree.lineage above := by
  rw [lineage, hparent, dif_pos hshorter]

theorem lineage_root (tree : Tree) : tree.lineage [] = [[]] := by
  rw [lineage]
  exact dif_neg (Nat.not_lt_zero _)

theorem emit_add (tree : Tree) (name : Text) (r : Record) (ids : List Nat) :
    (tree.add name).emit r ids = tree.emit r ids := by
  induction ids generalizing r with
  | nil => rfl
  | cons id ids ih =>
    simp only [emit, filtersOf_add]
    cases r.redactedAll (tree.filtersOf id) with
    | error fault => rfl
    | ok r => simp only [ih]

/-- What handlers print of a record is settled by the first filter on its way. -/
theorem log_of_replicate {m n : Nat}
    (hsteady : ∀ (r : Record) (n : Nat), r.redactedAll (List.replicate (n + 1) f) = r.redacted f)
    (hlogger : (tree.get name).filters = List.replicate m f)
    (hhandler : tree.filtersOf id = List.replicate (n + 1) f)
    (hreached : tree.reached name = id :: rest) (r : Record) :
    tree.log name r =
      match r.redacted f with
      | .error fault => ⟨[], .error fault⟩
      | .ok r => (tree.emit r rest).after (r.print id) := by
  have hfirst : ∀ r : Record, tree.emit r (id :: rest) =
      match r.redactedAll (List.replicate (n + 1) f) with
      | .error fault => ⟨[], .error fault⟩
      | .ok r => (tree.emit r rest).after (r.print id) := by
    intro r
    rw [← hhandler]
    rfl
  have hall : r.redactedAll (List.replicate m f ++ List.replicate (n + 1) f) = r.redacted f := by
    rw [List.replicate_append_replicate, ← Nat.add_assoc, hsteady]
  rw [Record.redactedAll_append] at hall
  rw [log, hlogger, hreached, ← hall]
  cases r.redactedAll (List.replicate m f) with
  | error fault => rfl
  | ok r => exact hfirst r

/-- Records of the two loggers reach the same handlers, the first of which had a filter installed
on it. The loggers themselves may have filters or not. -/
structure Meet (start : Tree) (actions : List Action) (name other : Text) : Prop where
  reached : ((start.after actions).add name).reached name =
    ((start.after actions).add other).reached other
  covered : ∃ id rest, ((start.after actions).add name).reached name = id :: rest ∧
    id ∈ start.covered actions

end Tree

/-- Records print alike on loggers whose records meet at a filtered handler. -/
def SteadyLoggers (token : Text) : Prop :=
  ∀ (d : Dictionary) (start : Tree) (actions : List Action) (name other : Text), start.Unfiltered →
    (∀ a ∈ actions, a.Uses (scanner token d)) → start.Meet actions name other →
    ∀ (severity : Nat) (r : Record),
      ((start.after actions).perform (.log name severity r)).2 =
        ((start.after actions).perform (.log other severity r)).2

theorem steadyLoggers_of_steadyRecords (h : SteadyRecords token) : SteadyLoggers token := by
  intro d start actions name other hstart hactions hmeet severity r
  obtain ⟨hreached, id, rest, hfirst, hcovered⟩ := hmeet
  have hlogger : ∀ logger, ∃ m, (((start.after actions).add logger).get logger).filters =
      List.replicate m (scanner token d) := fun logger => by
    rw [Tree.filters_add]
    exact ⟨_, (Tree.copies_filters_after hactions hstart logger).eq_replicate⟩
  have hhandler : ∃ n, (start.after actions).filtersOf id =
      List.replicate (n + 1) (scanner token d) := by
    have hcopies := Tree.copies_filtersOf_after hactions hstart id
    rw [List.contains_iff_mem.2 hcovered] at hcopies
    have hne : (start.after actions).filtersOf id ≠ [] := by
      simpa [List.isEmpty_eq_false_iff] using hcopies.2
    refine ⟨((start.after actions).filtersOf id).length - 1, ?_⟩
    rw [Nat.sub_add_cancel (List.length_pos_iff.2 hne)]
    exact hcopies.eq_replicate
  obtain ⟨n, hhandler⟩ := hhandler
  obtain ⟨m, hname⟩ := hlogger name
  obtain ⟨k, hother⟩ := hlogger other
  simp only [Tree.perform]
  rw [Tree.log_of_replicate (h d) hname (by rwa [Tree.filtersOf_add]) hfirst,
    Tree.log_of_replicate (h d) hother (by rwa [Tree.filtersOf_add]) (hreached ▸ hfirst)]
  simp only [Tree.emit_add]

/-! ## From what is printed to the token -/

def app : Text := "app".toList

def below : Text := "app.x".toList

def installing (f : Redactor) : List Action := [.addHandler app 0, .install app f]

theorem reached_app (f : Redactor) :
    ((Tree.empty.after (installing f)).add app).reached app = [0] := by
  have hparent : (((Tree.empty.after (installing f)).add app).get app).parent = [] := rfl
  rw [Tree.reached, Tree.lineage_of_parent hparent (by decide), Tree.lineage_root]
  rfl

theorem reached_below (f : Redactor) :
    ((Tree.empty.after (installing f)).add below).reached below = [0] := by
  have hparent : (((Tree.empty.after (installing f)).add below).get below).parent = app := rfl
  have hroot : (((Tree.empty.after (installing f)).add below).get app).parent = [] := rfl
  rw [Tree.reached, Tree.lineage_of_parent hparent (by decide),
    Tree.lineage_of_parent hroot (by decide), Tree.lineage_root]
  rfl

theorem log_app (f : Redactor) (t : Text) :
    ((Tree.empty.after (installing f)).perform (.log app 20 (.ofText t))).2 =
      ⟨[(0, f.redact (f.redact t) ++ ['\n'])], .ok ()⟩ := by
  simp only [Tree.perform, Tree.log, reached_app]
  rfl

theorem log_below (f : Redactor) (t : Text) :
    ((Tree.empty.after (installing f)).perform (.log below 20 (.ofText t))).2 =
      ⟨[(0, f.redact t ++ ['\n'])], .ok ()⟩ := by
  simp only [Tree.perform, Tree.log, reached_below]
  rfl

theorem redact_redact_of_steadyLoggers (h : SteadyLoggers token) (d : Dictionary) (t : Text) :
    (scanner token d).redact ((scanner token d).redact t) = (scanner token d).redact t := by
  have hactions : ∀ a ∈ installing (scanner token d), a.Uses (scanner token d) := by
    simp [installing, Action.Uses]
  have hmeet : Tree.empty.Meet (installing (scanner token d)) app below :=
    ⟨(reached_app _).trans (reached_below _).symm, 0, [], reached_app _, List.mem_singleton_self 0⟩
  have hprinted := h d Tree.empty _ app below Tree.unfiltered_empty hactions hmeet 20 (.ofText t)
  rw [log_app, log_below] at hprinted
  simpa using hprinted

/-- The same tokens leave records alone and loggers alike: those that stand for an argument. -/
theorem stands_tfae (hspace : Stops Text.isSpace token)
    (hquotes : startsPair token = true → '"' ∉ token) :
    [Stands token, SteadyRecords token, SteadyLoggers token].TFAE := by
  tfae_have 1 → 2 := steadyRecords_of_stands
  tfae_have 2 → 3 := steadyLoggers_of_steadyRecords
  tfae_have 3 → 1 := fun h =>
    -- This dictionary finds every option sensitive.
    stands_of_probes hspace hquotes fun line _ =>
      redact_redact_of_steadyLoggers h (.leads [[]]) line
  tfae_finish

theorem stands_tfae_quoted :
    SteadyRecords "\"not shown\"".toList ∧ SteadyLoggers "\"not shown\"".toList := by
  have hspace : Stops Text.isSpace "\"not shown\"".toList := stops_cons.2 (by decide)
  have hquotes : startsPair "\"not shown\"".toList = true → '"' ∉ "\"not shown\"".toList :=
    fun h => absurd h (by decide)
  have hstands : Stands "\"not shown\"".toList :=
    ⟨Or.inr ⟨"not shown".toList, [], List.all_eq_true.1 (by decide), by simp, rfl⟩, by simp,
      by decide, by decide⟩
  have htfae := stands_tfae hspace hquotes
  exact ⟨(htfae.out 0 1).1 hstands, (htfae.out 0 2).1 hstands⟩

/-- Without the quotes the blanks end the argument, and the rest of the token stays in the line. -/
theorem not_steady_unquoted :
    ¬ SteadyRecords "*** hidden ***".toList ∧ ¬ SteadyLoggers "*** hidden ***".toList := by
  have hlogger : ¬ SteadyLoggers "*** hidden ***".toList := by
    intro h
    have hstable := redact_redact_of_steadyLoggers h .standard "--password=secret".toList
    revert hstable
    decide +kernel
  exact ⟨fun h => hlogger (steadyLoggers_of_steadyRecords h), hlogger⟩

end Gatekeeper.Logging
