import Gatekeeper.Redaction.Redactor
import Gatekeeper.Proofs.Redaction.Grammar

/-!
# Names with their markers

The scan of a line takes the marker off an option before it looks the option up; whoever asks about
one argument gives the name as it stands, marker and all. Main statement: behind the markers of
properties the standard dictionary makes no difference between the two, so a line with one assigned
property is redacted as its argument is by itself (`redactSubject_assigned`).
-/

namespace Gatekeeper.Redaction

variable {m : Marker} {d : Dictionary} {token o a lead part u : Text}

/-- The markers that may stand in front of a property's name. -/
def propertyMarkers : List Marker := [.bare, .property, .forwarded]

/-! ## Names in a dictionary -/

namespace Dictionary

def markedLeads (leads : List Text) : List Text :=
  propertyMarkers.flatMap fun m => leads.map (m.text ++ ·)

theorem sensitiveLeads_eq :
    sensitiveLeads = markedLeads ["sysprop-".toList, "javax.net.ssl".toList, "security-".toList] :=
  rfl

/-- Neither a name nor a lead goes on with a hyphen, so their markers have to be the same. -/
theorem marked_prefix_iff {k : Marker} (hk : k ∈ propertyMarkers) (hm : m ∈ propertyMarkers)
    (hne : lead ≠ []) (hlead : Stops isHyphen lead) (ho : Stops isHyphen o) :
    k.text ++ lead <+: m.text ++ o ↔ k = m ∧ lead <+: o := by
  obtain ⟨c, lead, rfl⟩ := List.exists_cons_of_ne_nil hne
  have hc : c ≠ '-' := by simpa [isHyphen] using hlead
  have hunmarked : ∀ t, ¬ '-' :: t <+: o := by
    rintro t ⟨rest, rfl⟩
    simp [isHyphen] at ho
  simp only [propertyMarkers, List.mem_cons, List.not_mem_nil, or_false] at hk hm
  rcases hk with rfl | rfl | rfl <;> rcases hm with rfl | rfl | rfl <;>
    simp [Marker.text, hc, hunmarked]

theorem isSensitive_markedLeads {leads : List Text}
    (hleads : ∀ lead ∈ leads, lead ≠ [] ∧ Stops isHyphen lead) (hm : m ∈ propertyMarkers)
    (ho : Stops isHyphen o) :
    (Dictionary.leads (markedLeads leads)).isSensitive (m.text ++ o) =
      (Dictionary.leads leads).isSensitive o := by
  rw [Bool.eq_iff_iff]
  simp only [isSensitive, isSensitive?, Option.any_some, List.any_eq_true,
    List.isPrefixOf_iff_prefix, markedLeads, List.mem_flatMap, List.mem_map]
  constructor
  · rintro ⟨_, ⟨k, hk, lead, hlead, rfl⟩, hprefix⟩
    obtain ⟨hne, hhyphen⟩ := hleads lead hlead
    exact ⟨lead, hlead, ((marked_prefix_iff hk hm hne hhyphen ho).1 hprefix).2⟩
  · rintro ⟨lead, hlead, hprefix⟩
    have hmarked := (List.prefix_append_right_inj m.text).2 hprefix
    exact ⟨m.text ++ lead, ⟨m, hm, lead, hlead, rfl⟩, hmarked⟩

/-- A part cannot stand across the end of a text that does not hold its first character. -/
theorem occursIn_append (hne : part ≠ []) (hu : ∀ c ∈ u, part.head? ≠ some c) (t : Text) :
    Text.occursIn part (u ++ t) = Text.occursIn part t := by
  induction u with
  | nil => rfl
  | cons c u ih =>
    obtain ⟨b, part, rfl⟩ := List.exists_cons_of_ne_nil hne
    have hb : b ≠ c := by simpa using hu c (by simp)
    have hstep : (b :: part).isPrefixOf (c :: (u ++ t)) = false := by
      simp [List.isPrefixOf, hb]
    have hrest := ih fun e he => hu e (List.mem_cons_of_mem c he)
    rw [List.cons_append, Text.occursIn, hstep, Bool.false_or, hrest]

theorem isSensitive_parts_append {parts : List Text}
    (hparts : ∀ part ∈ parts, part ≠ [] ∧ ∀ c ∈ u, part.head? ≠ some c) (t : Text) :
    (Dictionary.parts parts).isSensitive (u ++ t) = (Dictionary.parts parts).isSensitive t := by
  rw [Bool.eq_iff_iff]
  simp only [isSensitive, isSensitive?, Option.any_some, List.any_eq_true]
  refine exists_congr fun part => and_congr_right fun hpart => ?_
  rw [occursIn_append (hparts part hpart).1 (hparts part hpart).2]

theorem isSensitive_standard (name : Text) :
    standard.isSensitive name =
      ((Dictionary.leads sensitiveLeads).isSensitive name ||
        (Dictionary.parts sensitiveParts).isSensitive name) := by
  simp [standard, isSensitive_combined]

theorem isSensitive_standard_append (hm : m ∈ propertyMarkers) (ho : Stops isHyphen o) :
    standard.isSensitive (m.text ++ o) = standard.isSensitive o := by
  have hleads : ∀ lead ∈ ["sysprop-".toList, "javax.net.ssl".toList, "security-".toList],
      lead ≠ [] ∧ Stops isHyphen lead := by
    simp [isHyphen]
  have hunmarked : (Dictionary.leads sensitiveLeads).isSensitive (m.text ++ o) =
      (Dictionary.leads sensitiveLeads).isSensitive o := by
    have hbare : Marker.bare ∈ propertyMarkers := by simp [propertyMarkers]
    -- The leads are listed for each of the markers, the bare one among them.
    rw [sensitiveLeads_eq, isSensitive_markedLeads hleads hm ho]
    exact (isSensitive_markedLeads hleads hbare ho).symm
  have hparts : ∀ part ∈ sensitiveParts, part ≠ [] ∧ ∀ c ∈ m.text, part.head? ≠ some c := by
    simp only [propertyMarkers, List.mem_cons, List.not_mem_nil, or_false] at hm
    rcases hm with rfl | rfl | rfl <;> simp [Marker.text, sensitiveParts]
  rw [isSensitive_standard, isSensitive_standard, hunmarked, isSensitive_parts_append hparts]

end Dictionary

/-! ## One assigned property -/

def assignedProperty (m : Marker) (o a : Text) : Pair := ⟨m, o, some ⟨['='], a⟩⟩

theorem text_assignedProperty (m : Marker) (o a : Text) :
    (assignedProperty m o a).text = m.text ++ o ++ '=' :: a := by
  simp [assignedProperty, Pair.text, Binding.text]

theorem wellFormed_assignedProperty (hm : m ∈ propertyMarkers) (ho : IsOption o) (ha : IsRun a) :
    (assignedProperty m o a).WellFormed where
  option := ho
  binding := by
    rintro b hb
    obtain rfl := Option.some.inj hb
    exact ⟨isAssignment_equals, Or.inl ha, by simp, by simp⟩
  unforwarded := by
    rintro ⟨hhyphens, -⟩
    have hmarker : m = .hyphens 0 := hhyphens
    simp [propertyMarkers, hmarker] at hm

theorem redactLine_assignedProperty (hm : m ∈ propertyMarkers) (ho : IsOption o) (ha : IsRun a)
    (S : Text → Bool) (token : Text) :
    redactLine S token (m.text ++ o ++ '=' :: a) =
      m.text ++ o ++ '=' :: if S o then token else a := by
  have hscan := scan_text_pair (wellFormed_assignedProperty hm ho ha)
  rw [text_assignedProperty] at hscan
  have hhidden : (assignedProperty m o a).isHidden S = S o := by
    simp [Pair.isHidden, assignedProperty]
  rw [redactLine, hscan, List.flatMap_singleton, Piece.redacted, hhidden]
  split
  · exact text_assignedProperty m o token
  · exact text_assignedProperty m o a

/-- A line with one property, and the value of the property by itself, are redacted alike, and the
name is looked up alike with its marker and without. -/
theorem redactSubject_assigned (hm : m ∈ propertyMarkers) (ho : IsOption o) (ha : IsRun a)
    (token : Text) :
    (⟨token, .standard, .scanning⟩ : Redactor).redactSubject
        (.line (m.text ++ o ++ '=' :: a)) =
      ((⟨token, .standard, .scanning⟩ : Redactor).redactArgument
        (some (m.text ++ o)) (some a)).map (m.text ++ o ++ '=' :: ·) ∧
    Dictionary.standard.isSensitive? (some (m.text ++ o)) =
      Dictionary.standard.isSensitive? (some o) := by
  have hsame := Dictionary.isSensitive_standard_append hm ho.unhyphened
  refine ⟨?_, hsame⟩
  have hline := redactLine_assignedProperty hm ho ha Dictionary.standard.isSensitive token
  have hargument : (⟨token, .standard, .scanning⟩ : Redactor).redactArgument
      (some (m.text ++ o)) (some a) =
        some (if Dictionary.standard.isSensitive o then token else a) := by
    rw [← hsame]
    exact (apply_ite some _ _ _).symm
  rw [hargument]
  exact congrArg some hline

theorem redactSubject_assigned_forwarded :
    Marker.forwarded ∈ propertyMarkers ∧ IsOption "security-token".toList ∧
      IsRun "=a\"b".toList ∧
      (⟨"***".toList, .standard, .scanning⟩ : Redactor).redactSubject
          (.line "--J=-Dsecurity-token==a\"b".toList) =
        some "--J=-Dsecurity-token=***".toList := by
  have hm : Marker.forwarded ∈ propertyMarkers := by simp [propertyMarkers]
  have ho : IsOption "security-token".toList :=
    ⟨by simp, List.all_eq_true.1 (by decide +kernel), by simp [isHyphen]⟩
  have ha : IsRun "=a\"b".toList :=
    ⟨by simp, List.all_eq_true.1 (by decide +kernel), by simp⟩
  obtain ⟨hline, -⟩ := redactSubject_assigned hm ho ha "***".toList
  have htext : Marker.forwarded.text ++ "security-token".toList ++ '=' :: "=a\"b".toList =
      "--J=-Dsecurity-token==a\"b".toList := by decide
  refine ⟨hm, ho, ha, ?_⟩
  rw [← htext, hline]
  decide +kernel

/-- No lead is listed behind hyphens, where the two ways differ. -/
example :
    redactLine Dictionary.standard.isSensitive "***".toList "--security-token=x".toList =
        "--security-token=***".toList ∧
      Dictionary.standard.isSensitive "--security-token".toList = false := by
  decide +kernel

end Gatekeeper.Redaction
