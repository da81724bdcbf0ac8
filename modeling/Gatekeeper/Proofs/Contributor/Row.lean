import Gatekeeper.Contributor.AcceptList

/-!
# Rows of a class list

A row of a class list writes a name, with padding around it and perhaps fields behind a comma, or it
writes none. Main statements: a line that is such a row is read as its name with dots for slashes
(`nameOfLine?_text`), and there are no other lines (`exists_row`).
-/

namespace Gatekeeper

/-! ## Trimming and cutting -/

namespace Text

variable {c : Char} {t u v : Text}

theorem trimStart_append (hu : isBlank u = true) (hv : ∀ c ∈ v.head?, isSpace c = false) :
    trimStart (u ++ v) = v := by
  have hnil : u.dropWhile isSpace = [] := trimStart_eq_nil_iff.2 hu
  rw [trimStart, List.dropWhile_append, hnil, List.isEmpty_nil, if_pos rfl]
  cases v with
  | nil => rfl
  | cons c v => exact List.dropWhile_cons_of_neg (by simp [hv c rfl])

theorem trimEnd_append_cons (u : Text) (hc : isSpace c = false) (v : Text) :
    trimEnd (u ++ c :: v) = u ++ c :: trimEnd v := by
  have hreverse : (u ++ c :: v).reverse = v.reverse ++ c :: u.reverse := by simp
  have hstop : (c :: u.reverse).dropWhile isSpace = c :: u.reverse :=
    List.dropWhile_cons_of_neg (by simp [hc])
  rw [trimEnd, trimEnd, hreverse, List.dropWhile_append, hstop]
  by_cases hv : (v.reverse.dropWhile isSpace).isEmpty = true
  · rw [if_pos hv, List.isEmpty_iff.1 hv]
    simp
  · rw [if_neg hv]
    simp

theorem trimEnd_cons (hc : isSpace c = false) (v : Text) : trimEnd (c :: v) = c :: trimEnd v :=
  trimEnd_append_cons [] hc v

theorem trimEnd_of_isBlank (h : isBlank t = true) : trimEnd t = [] := by
  have hreverse : isBlank t.reverse = true := by rwa [isBlank, List.all_reverse]
  exact List.reverse_eq_nil_iff.2 (trimStart_eq_nil_iff.2 hreverse)

theorem trimEnd_append (hne : u ≠ []) (hlast : ∀ c ∈ u.getLast?, isSpace c = false) (v : Text) :
    trimEnd (u ++ v) = u ++ trimEnd v := by
  obtain ⟨k, c, rfl⟩ := (List.eq_nil_or_concat u).resolve_left hne
  have hc : isSpace c = false := hlast c (by simp)
  simpa using trimEnd_append_cons k hc v

theorem exists_trimStart (t : Text) : ∃ u v, isBlank u = true ∧
    (∀ c ∈ v.head?, isSpace c = false) ∧ t = u ++ v := by
  refine ⟨t.takeWhile isSpace, t.dropWhile isSpace, List.all_takeWhile, ?_,
    List.takeWhile_append_dropWhile.symm⟩
  intro c hc
  have hstop := List.head?_dropWhile_not isSpace t
  rw [Option.mem_def] at hc
  simpa [hc] using hstop

/-- A text is what is left of it after trimming its end, and whitespace. -/
theorem exists_trimEnd (t : Text) : ∃ v, isBlank v = true ∧ trimEnd t ++ v = t ∧
    ∀ c ∈ (trimEnd t).getLast?, isSpace c = false := by
  refine ⟨(t.reverse.takeWhile isSpace).reverse, ?_, ?_, ?_⟩
  · rw [isBlank, List.all_reverse]
    exact List.all_takeWhile
  · rw [trimEnd, ← List.reverse_append, List.takeWhile_append_dropWhile, List.reverse_reverse]
  · intro c hc
    have hstop := List.head?_dropWhile_not isSpace t.reverse
    rw [trimEnd, List.getLast?_reverse, Option.mem_def] at hc
    simpa [hc] using hstop

theorem cutAt_of_not_mem {mark : Char} (h : mark ∉ t) : cutAt mark t = (t, none) := by
  induction t with
  | nil => rfl
  | cons c t ih =>
    obtain ⟨hc, ht⟩ := not_or.1 (mt List.mem_cons.2 h)
    simp [cutAt, Ne.symm hc, ih ht]

theorem cutAt_append_cons {mark : Char} (h : mark ∉ u) (v : Text) :
    cutAt mark (u ++ mark :: v) = (u, some v) := by
  induction u with
  | nil => simp [cutAt]
  | cons c u ih =>
    obtain ⟨hc, hu⟩ := not_or.1 (mt List.mem_cons.2 h)
    simp [cutAt, Ne.symm hc, ih hu]

end Text

namespace AcceptList

variable {line : Text}

/-! ## Rows -/

def IsUnbroken (t : Text) : Prop := ∀ c ∈ t, Text.isLineBoundary c = false

instance (t : Text) : Decidable (IsUnbroken t) := List.decidableBAll _ t

theorem isUnbroken_append_iff {u v : Text} :
    IsUnbroken (u ++ v) ↔ IsUnbroken u ∧ IsUnbroken v := List.forall_mem_append

theorem IsUnbroken.append {u v : Text} (hu : IsUnbroken u) (hv : IsUnbroken v) :
    IsUnbroken (u ++ v) := isUnbroken_append_iff.2 ⟨hu, hv⟩

theorem isUnbroken_nil : IsUnbroken [] := by simp [IsUnbroken]

/-- A stretch of text within one line. -/
structure Stretch where
  text : Text
  unbroken : IsUnbroken text

structure Padding extends Stretch where
  blank : Text.isBlank text = true

def Padding.empty : Padding where
  text := []
  unbroken := isUnbroken_nil
  blank := rfl

structure ClassName extends Stretch where
  ne_nil : text ≠ []
  comma_not_mem : ',' ∉ text
  starts : ∀ c ∈ text.head?, Text.isSpace c = false
  ends : ∀ c ∈ text.getLast?, Text.isSpace c = false
  not_hash : ¬ ['#'] <+: text
  not_slashes : ¬ ['/', '/'] <+: text

/-- What stands behind the padding of a row without a name. -/
structure Remark extends Stretch where
  marked : text = [] ∨ ['#'] <+: text ∨ ['/', '/'] <+: text ∨ [','] <+: text

inductive Row
  | named (lead : Padding) (name : ClassName) (trail : Padding) (fields : Option Stretch)
  | unnamed (lead : Padding) (remark : Remark)

namespace Row

def fieldsText (fields : Option Stretch) : Text := (fields.map fun f => ',' :: f.text).getD []

def text : Row → Text
  | .named lead name trail fields =>
    lead.text ++ (name.text ++ (trail.text ++ fieldsText fields))
  | .unnamed lead remark => lead.text ++ remark.text

def name? : Row → Option ClassName
  | .named _ name _ _ => some name
  | .unnamed _ _ => none

end Row

/-! ## Reading a row -/

theorem isComment_eq_false_iff {t : Text} :
    isComment t = false ↔ ¬ ['#'] <+: t ∧ ¬ ['/', '/'] <+: t := by
  simp [isComment, Bool.eq_false_iff]

theorem nameOfLine?_remark (lead : Padding) (remark : Remark) :
    nameOfLine? (lead.text ++ remark.text) = none := by
  have hash : Text.isSpace '#' = false := by decide
  have slash : Text.isSpace '/' = false := by decide
  have comma : Text.isSpace ',' = false := by decide
  have htrim : Text.trim (lead.text ++ remark.text) = Text.trimEnd remark.text := by
    have hstart : ∀ c ∈ remark.text.head?, Text.isSpace c = false := by
      rcases remark.marked with h | ⟨r, h⟩ | ⟨r, h⟩ | ⟨r, h⟩
      · simp [h]
      · simp [← h, hash]
      · simp [← h, slash]
      · simp [← h, comma]
    rw [Text.trim, Text.trimStart_append lead.blank hstart]
  rw [nameOfLine?, htrim]
  rcases remark.marked with h | ⟨r, h⟩ | ⟨r, h⟩ | ⟨r, h⟩
  · rw [h]
    rfl
  · rw [← h, List.singleton_append, Text.trimEnd_cons hash]
    rfl
  · have hslashes := Text.trimEnd_append_cons ['/'] slash r
    rw [List.singleton_append] at hslashes
    rw [← h, List.cons_append, List.singleton_append, hslashes]
    rfl
  · rw [← h, List.singleton_append, Text.trimEnd_cons comma]
    rfl

namespace ClassName

variable (name : ClassName)

theorem trim_append {v : Text} (lead : Padding) :
    Text.trim (lead.text ++ (name.text ++ v)) = name.text ++ Text.trimEnd v := by
  have hstart : ∀ c ∈ (name.text ++ v).head?, Text.isSpace c = false := by
    obtain ⟨c, k, hk⟩ := List.exists_cons_of_ne_nil name.ne_nil
    have hc := name.starts
    rw [hk] at hc ⊢
    exact hc
  rw [Text.trim, Text.trimStart_append lead.blank hstart, Text.trimEnd_append name.ne_nil name.ends]

theorem trim_append_padding (trail : Padding) :
    Text.trim (name.text ++ trail.text) = name.text := by
  have htrim := name.trim_append Padding.empty (v := trail.text)
  rwa [Text.trimEnd_of_isBlank trail.blank, List.append_nil] at htrim

theorem trim_text : Text.trim name.text = name.text := by
  have htrim := name.trim_append_padding Padding.empty
  rwa [Padding.empty, List.append_nil] at htrim

theorem isComment_append {v : Text} (hv : v.head? ≠ some '/') :
    isComment (name.text ++ v) = false := by
  have hhash := name.not_hash
  have hslashes := name.not_slashes
  rw [isComment_eq_false_iff]
  rcases hname : name.text with _ | ⟨c, _ | ⟨d, k⟩⟩
  · exact absurd hname name.ne_nil
  · rw [hname] at hhash
    refine ⟨by simpa using hhash, ?_⟩
    rintro ⟨r, hr⟩
    have hslash : '/' :: r = v := (List.cons.inj hr).2
    exact hv (by rw [← hslash]; rfl)
  · rw [hname] at hhash hslashes
    exact ⟨by simpa using hhash, by simpa using hslashes⟩

theorem comma_not_mem_append (trail : Padding) : ',' ∉ name.text ++ trail.text := by
  intro h
  rcases List.mem_append.1 h with h | h
  · exact name.comma_not_mem h
  · exact absurd (List.all_eq_true.1 trail.blank _ h) (by decide)

end ClassName

theorem Padding.head?_append_comma (trail : Padding) (v : Text) :
    (trail.text ++ ',' :: v).head? ≠ some '/' := by
  intro h
  rcases htrail : trail.text with _ | ⟨c, k⟩
  · simp [htrail] at h
  · have hc : c = '/' := by simpa [htrail] using h
    have hspace : Text.isSpace c = true := List.all_eq_true.1 trail.blank c (by simp [htrail])
    rw [hc] at hspace
    exact absurd hspace (by decide)

theorem Row.trimEnd_fieldsText (trail : Padding) (fields : Option Stretch) :
    Text.trimEnd (trail.text ++ fieldsText fields) = [] ∨
      ∃ v, Text.trimEnd (trail.text ++ fieldsText fields) = trail.text ++ ',' :: v := by
  cases fields with
  | none => exact Or.inl (by simpa [fieldsText] using Text.trimEnd_of_isBlank trail.blank)
  | some f => exact Or.inr ⟨_, Text.trimEnd_append_cons trail.text (by decide) f.text⟩

theorem nameOfLine?_of_trim {t name : Text} (htrim : Text.trim line = t) (ht : t ≠ [])
    (hcomment : isComment t = false) (hcut : Text.trim (Text.cutAt ',' t).1 = name)
    (hname : name ≠ []) : nameOfLine? line = some (name.map dotted) := by
  simp [nameOfLine?, htrim, ht, hcomment, hcut, hname]

/-- The fields lose the whitespace at the end of the line, so what is left of them, if anything,
starts with the comma still; the name is trimmed once more in front of it. -/
theorem nameOfLine?_name (lead : Padding) (name : ClassName) (trail : Padding)
    (fields : Option Stretch) :
    nameOfLine? (lead.text ++ (name.text ++ (trail.text ++ Row.fieldsText fields))) =
      some (name.text.map dotted) := by
  have htrim := name.trim_append lead (v := trail.text ++ Row.fieldsText fields)
  have hne : ∀ v, name.text ++ v ≠ [] := fun v h => name.ne_nil (List.append_eq_nil_iff.1 h).1
  rcases Row.trimEnd_fieldsText trail fields with h | ⟨v, h⟩
  · rw [h] at htrim
    refine nameOfLine?_of_trim htrim (hne _) (name.isComment_append (by simp)) ?_ name.ne_nil
    rw [List.append_nil, Text.cutAt_of_not_mem name.comma_not_mem]
    exact name.trim_text
  · rw [h] at htrim
    refine nameOfLine?_of_trim htrim (hne _) (name.isComment_append ?_) ?_ name.ne_nil
    · exact trail.head?_append_comma v
    · rw [← List.append_assoc, Text.cutAt_append_cons (name.comma_not_mem_append trail)]
      exact name.trim_append_padding trail

theorem nameOfLine?_text (row : Row) :
    nameOfLine? row.text = row.name?.map fun n => n.text.map dotted := by
  cases row with
  | named lead name trail fields => exact nameOfLine?_name lead name trail fields
  | unnamed lead remark => exact nameOfLine?_remark lead remark

theorem Row.isUnbroken (row : Row) : IsUnbroken row.text := by
  cases row with
  | unnamed lead remark => exact lead.unbroken.append remark.unbroken
  | named lead name trail fields =>
    have hfields : IsUnbroken (fieldsText fields) := by
      cases fields with
      | none => exact isUnbroken_nil
      | some f =>
        have hcomma : IsUnbroken [','] := by decide
        exact hcomma.append f.unbroken
    exact lead.unbroken.append (name.unbroken.append (trail.unbroken.append hfields))

/-! ## Every line is a row -/

theorem exists_name {u : Text} (h : IsUnbroken u) (hne : u ≠ []) (hcomma : ',' ∉ u)
    (hstart : ∀ c ∈ u.head?, Text.isSpace c = false) (hcomment : isComment u = false) :
    ∃ (name : ClassName) (trail : Padding), name.text ++ trail.text = u := by
  obtain ⟨v, hblank, hu, hlast⟩ := Text.exists_trimEnd u
  rcases hname : Text.trimEnd u with _ | ⟨c, k⟩
  · -- A blank text has no first character that is no whitespace.
    rw [hname, List.nil_append] at hu
    obtain ⟨c, k, rfl⟩ := List.exists_cons_of_ne_nil hne
    rw [hu] at hblank
    have hc : Text.isSpace c = true := List.all_eq_true.1 hblank c (by simp)
    rw [hstart c rfl] at hc
    exact absurd hc Bool.false_ne_true
  · rw [hname] at hu hlast
    subst hu
    have hparts := isUnbroken_append_iff.1 h
    obtain ⟨hhash, hslashes⟩ := isComment_eq_false_iff.1 hcomment
    have hprefix : c :: k <+: c :: k ++ v := List.prefix_append _ _
    exact ⟨{ text := c :: k
             unbroken := hparts.1
             ne_nil := by simp
             comma_not_mem := fun hmem => hcomma (List.mem_append_left _ hmem)
             starts := hstart
             ends := hlast
             not_hash := fun hmark => hhash (hmark.trans hprefix)
             not_slashes := fun hmark => hslashes (hmark.trans hprefix) },
      ⟨⟨v, hparts.2⟩, hblank⟩, rfl⟩

theorem exists_fields {t : Text} (h : IsUnbroken t) :
    ∃ (u : Text) (fields : Option Stretch), ',' ∉ u ∧ t = u ++ Row.fieldsText fields := by
  induction t with
  | nil => exact ⟨[], none, by simp, rfl⟩
  | cons c t ih =>
    have hrest : IsUnbroken t := fun d hd => h d (by simp [hd])
    by_cases hc : c = ','
    · exact ⟨[], some ⟨t, hrest⟩, by simp, by rw [hc]; rfl⟩
    · obtain ⟨u, fields, hu, rfl⟩ := ih hrest
      exact ⟨c :: u, fields, by simp [hu, Ne.symm hc], rfl⟩

theorem exists_row (h : IsUnbroken line) : ∃ row : Row, row.text = line := by
  obtain ⟨u, v, hblank, hstart, rfl⟩ := Text.exists_trimStart line
  obtain ⟨hu, hv⟩ := isUnbroken_append_iff.1 h
  obtain ⟨lead, rfl⟩ : ∃ lead : Padding, lead.text = u := ⟨⟨⟨u, hu⟩, hblank⟩, rfl⟩
  by_cases hmarked : v = [] ∨ ['#'] <+: v ∨ ['/', '/'] <+: v ∨ [','] <+: v
  · exact ⟨.unnamed lead ⟨⟨v, hv⟩, hmarked⟩, rfl⟩
  · simp only [not_or] at hmarked
    obtain ⟨hne, hhash, hslashes, hcomma⟩ := hmarked
    obtain ⟨u, fields, hu, rfl⟩ := exists_fields hv
    have hprefix : u <+: u ++ Row.fieldsText fields := List.prefix_append _ _
    have hu_ne : u ≠ [] := by
      rintro rfl
      cases fields with
      | none => exact hne rfl
      | some f => exact hcomma ⟨f.text, rfl⟩
    have hu_start : ∀ c ∈ u.head?, Text.isSpace c = false := by
      obtain ⟨c, k, rfl⟩ := List.exists_cons_of_ne_nil hu_ne
      exact hstart
    have hu_comment : isComment u = false := isComment_eq_false_iff.2
      ⟨fun h => hhash (h.trans hprefix), fun h => hslashes (h.trans hprefix)⟩
    obtain ⟨name, trail, rfl⟩ :=
      exists_name (isUnbroken_append_iff.1 hv).1 hu_ne hu hu_start hu_comment
    exact ⟨.named lead name trail fields, by simp [Row.text]⟩

end AcceptList

end Gatekeeper
