import Gatekeeper.Proofs.Contributor.Row

/-!
# Written class lists

A class list is written row by row; every row but the last has a line end, and any boundary
character will do, or a carriage return with its line feed. Main statement: reading gives the names
that were written, and since every text is a written list, it gives nothing else (`reads_listing`).
-/

namespace Gatekeeper

namespace Text

variable {c : Char} {t u : Text}

theorem linesBy_append_cons {ends : Char → Bool} (hu : ∀ c ∈ u, ends c = false)
    (hc : ends c = true) (v : Text) : linesBy ends (u ++ c :: v) = u :: linesBy ends v := by
  induction u with
  | nil => simp [linesBy, hc]
  | cons d u ih => simp [linesBy, hu d (by simp), ih fun e he => hu e (by simp [he]), consHead]

theorem linesBy_of_forall {ends : Char → Bool} (hne : t ≠ []) (ht : ∀ c ∈ t, ends c = false) :
    linesBy ends t = [t] := by
  induction t with
  | nil => exact absurd rfl hne
  | cons c t ih =>
    have htail : ∀ d ∈ t, ends d = false := fun d hd => ht d (by simp [hd])
    cases t with
    | nil => simp [linesBy, ht c (by simp), consHead]
    | cons d t =>
      rw [linesBy, ih (by simp) htail, ht c (by simp)]
      rfl

end Text

namespace AcceptList

variable {line : Text} {c : Char}

/-! ## Names between line ends -/

/-- The names of a text with every boundary character as a line end of its own. -/
def boundedNames (t : Text) : List Text :=
  (Text.linesBy Text.isLineBoundary t).filterMap nameOfLine?

theorem boundedNames_append (h : IsUnbroken line) (hc : Text.isLineBoundary c = true)
    (rest : Text) :
    boundedNames (line ++ c :: rest) = (nameOfLine? line).toList ++ boundedNames rest := by
  rw [boundedNames, Text.linesBy_append_cons h hc, List.filterMap_cons, boundedNames]
  cases nameOfLine? line <;> rfl

theorem boundedNames_of_isUnbroken (h : IsUnbroken line) :
    boundedNames line = (nameOfLine? line).toList := by
  by_cases hne : line = []
  · rw [hne]
    rfl
  · rw [boundedNames, Text.linesBy_of_forall hne h, List.filterMap_cons]
    cases nameOfLine? line <;> rfl

theorem boundedNames_feed (rest : Text) : boundedNames ('\n' :: rest) = boundedNames rest :=
  boundedNames_append isUnbroken_nil (by decide) rest

theorem boundedNames_normalizeNewlines (h : IsUnbroken line) (t : Text) :
    boundedNames (line ++ Text.normalizeNewlines t) = boundedNames (line ++ t) := by
  fun_induction Text.normalizeNewlines t generalizing line with
  | case1 rest ih =>
    -- As two line ends, the carriage return and the line feed have an empty line between them.
    have hrest : boundedNames (Text.normalizeNewlines rest) = boundedNames rest :=
      ih isUnbroken_nil
    rw [boundedNames_append h (by decide), boundedNames_append h (by decide), hrest,
      boundedNames_feed]
  | case2 c rest _ ih =>
    by_cases hc : Text.isLineBoundary c = true
    · have hend : Text.isLineBoundary (if c = '\r' then '\n' else c) = true := by
        split
        · decide
        · exact hc
      have hrest : boundedNames (Text.normalizeNewlines rest) = boundedNames rest :=
        ih isUnbroken_nil
      rw [boundedNames_append h hend, boundedNames_append h hc, hrest]
    · have hsame : c ≠ '\r' := by
        rintro rfl
        exact hc (by decide)
      have hlonger : IsUnbroken (line ++ [c]) := h.append (by simpa [IsUnbroken] using hc)
      simpa [hsame] using ih hlonger
  | case3 => rfl

/-- How lines end makes no difference to the names. -/
theorem classNames_eq_boundedNames (t : Text) : classNames t = boundedNames t :=
  boundedNames_normalizeNewlines isUnbroken_nil t

/-! ## Listings -/

inductive LineEnd
  | boundary (c : Char) (h : Text.isLineBoundary c = true)
  | returnAndFeed

inductive Listing
  | last (row : Row)
  | line (row : Row) (lineEnd : LineEnd) (rest : Listing)

def LineEnd.text : LineEnd → Text
  | .boundary c _ => [c]
  | .returnAndFeed => ['\r', '\n']

namespace Listing

def text : Listing → Text
  | .last row => row.text
  | .line row lineEnd rest => row.text ++ (lineEnd.text ++ rest.text)

def names : Listing → List ClassName
  | .last row => row.name?.toList
  | .line row _ rest => row.name?.toList ++ rest.names

end Listing

/-- What a line adds, however it ends. -/
theorem boundedNames_line (row : Row) (lineEnd : LineEnd) (rest : Text) :
    boundedNames (row.text ++ (lineEnd.text ++ rest)) =
      (row.name?.map fun n => n.text.map dotted).toList ++ boundedNames rest := by
  rw [← nameOfLine?_text]
  cases lineEnd with
  | boundary c h => exact boundedNames_append row.isUnbroken h rest
  | returnAndFeed =>
    have hreturn := boundedNames_append row.isUnbroken (by decide) ('\n' :: rest) (c := '\r')
    rwa [boundedNames_feed] at hreturn

theorem boundedNames_text (l : Listing) :
    boundedNames l.text = l.names.map fun n => n.text.map dotted := by
  induction l with
  | last row =>
    rw [Listing.text, boundedNames_of_isUnbroken row.isUnbroken, nameOfLine?_text, Listing.names]
    cases row.name? <;> rfl
  | line row lineEnd rest ih =>
    rw [Listing.text, boundedNames_line, ih, Listing.names, List.map_append]
    cases row.name? <;> rfl

theorem exists_listing (h : IsUnbroken line) (t : Text) : ∃ l : Listing, l.text = line ++ t := by
  induction t generalizing line with
  | nil =>
    obtain ⟨row, hrow⟩ := exists_row h
    exact ⟨.last row, by rw [Listing.text, hrow, List.append_nil]⟩
  | cons c t ih =>
    by_cases hc : Text.isLineBoundary c = true
    · obtain ⟨row, hrow⟩ := exists_row h
      obtain ⟨rest, hrest⟩ := ih isUnbroken_nil
      exact ⟨.line row (.boundary c hc) rest, by rw [Listing.text, hrow, hrest]; rfl⟩
    · have hlonger : IsUnbroken (line ++ [c]) := h.append (by simpa [IsUnbroken] using hc)
      obtain ⟨l, hl⟩ := ih hlonger
      exact ⟨l, by rw [hl, List.append_assoc]; rfl⟩

/-! ## Dots for slashes -/

theorem dotted_eq_iff {d : Char} (hslash : d ≠ '/') (hdot : d ≠ '.') : dotted c = d ↔ c = d := by
  unfold dotted
  split
  · next h => simp [h, Ne.symm hslash, Ne.symm hdot]
  · rfl

theorem dotted_ne_slash (c : Char) : dotted c ≠ '/' := by
  unfold dotted
  split
  · decide
  · assumption

theorem of_dotted {P : Char → Prop} (h : P c) (hdot : P '.') : P (dotted c) := by
  unfold dotted
  split
  · exact hdot
  · exact h

namespace ClassName

theorem slash_not_mem_map (t : Text) : '/' ∉ t.map AcceptList.dotted := by
  intro h
  obtain ⟨c, -, hc⟩ := List.mem_map.1 h
  exact dotted_ne_slash c hc

/-- The name with dots for slashes, which is a class name again. -/
def dotted (n : ClassName) : ClassName where
  text := n.text.map AcceptList.dotted
  unbroken := by
    intro d hd
    obtain ⟨c, hc, rfl⟩ := List.mem_map.1 hd
    exact of_dotted (P := fun d => Text.isLineBoundary d = false) (n.unbroken c hc) (by decide)
  ne_nil := by simpa using n.ne_nil
  comma_not_mem := by
    intro h
    obtain ⟨c, hc, hcomma⟩ := List.mem_map.1 h
    rw [dotted_eq_iff (by decide) (by decide)] at hcomma
    exact n.comma_not_mem (hcomma ▸ hc)
  starts := by
    intro d hd
    rw [List.head?_map] at hd
    obtain ⟨c, hc, rfl⟩ := Option.map_eq_some_iff.1 hd
    exact of_dotted (P := fun d => Text.isSpace d = false) (n.starts c hc) (by decide)
  ends := by
    intro d hd
    rw [List.getLast?_map] at hd
    obtain ⟨c, hc, rfl⟩ := Option.map_eq_some_iff.1 hd
    exact of_dotted (P := fun d => Text.isSpace d = false) (n.ends c hc) (by decide)
  not_hash := by
    rintro ⟨r, hr⟩
    obtain ⟨c, k, hk⟩ := List.exists_cons_of_ne_nil n.ne_nil
    rw [hk, List.map_cons] at hr
    have hc : c = '#' := (dotted_eq_iff (by decide) (by decide)).1 (List.cons.inj hr).1.symm
    exact n.not_hash ⟨k, by rw [hk, hc]; rfl⟩
  not_slashes := fun h => slash_not_mem_map n.text (h.mem (by simp))

end ClassName

/-! ## Sources -/

/-- A source that has a text to read, directly or in bytes, or by way of a resource. -/
inductive Source.Holds (t : Text) : Source → Prop
  | text : Source.Holds t (.text t)
  | bytes {content : List UInt8} (h : decode content = .ok t) : Source.Holds t (.bytes content)
  | resource {package way : Text} (h : Resource.read package way = .ok t) :
    Source.Holds t (.resource package way)

theorem Source.Holds.read_eq {t : Text} {s : Source} (h : s.Holds t) :
    s.read = .ok (classNames t) := by
  cases h with
  | text => rfl
  | bytes h => rw [Source.read, h]; rfl
  | resource h => exact Source.read_resource h

def utf8 (t : Text) : List UInt8 := (String.ofList t).toByteArray.data.toList

theorem holds_utf8 (t : Text) : (Source.bytes (utf8 t)).Holds t := by
  refine .bytes ?_
  have hbytes : (⟨(String.ofList t).toByteArray.data.toList.toArray⟩ : ByteArray) =
      (String.ofList t).toByteArray := by simp
  have hvalid := (String.ofList t).isValidUTF8
  rw [utf8, decode, hbytes, String.fromUTF8?, dif_pos hvalid]
  exact congrArg Except.ok String.toList_ofList

/-- Reading undoes writing: a source whose text was written row by row gives the names of the rows,
in order, with dots for slashes. As any text is so written, whatever a source gives is class names
without slashes. -/
theorem reads_listing {t : Text} {s : Source} (h : s.Holds t) :
    (∀ l : Listing, l.text = t → s.read = .ok (l.names.map fun n => n.text.map dotted)) ∧
      (∃ l : Listing, l.text = t) ∧
      ∃ names : List ClassName, s.read = .ok (names.map fun n => n.text) ∧
        ∀ n ∈ names, '/' ∉ n.text := by
  have hread : ∀ l : Listing, l.text = t →
      s.read = .ok (l.names.map fun n => n.text.map dotted) := by
    rintro l rfl
    rw [h.read_eq, classNames_eq_boundedNames, boundedNames_text]
  obtain ⟨l, hl⟩ := exists_listing isUnbroken_nil t
  refine ⟨hread, ⟨l, hl⟩, l.names.map ClassName.dotted, ?_, ?_⟩
  · rw [hread l hl, List.map_map]
    rfl
  · intro n hn
    obtain ⟨n, -, rfl⟩ := List.mem_map.1 hn
    exact ClassName.slash_not_mem_map n.text

/-- A comment, a name with fields, a blank line and a line without a name. -/
theorem reads_listing_decorated :
    (Source.bytes (utf8 "# list\r\n\t app/model/Order ,1, 2\u2028\r\n, none".toList)).read =
      .ok ["app.model.Order".toList] := by
  have hread := (reads_listing (holds_utf8
    "# list\r\n\t app/model/Order ,1, 2\u2028\r\n, none".toList)).1
  exact hread
    (.line (.unnamed .empty ⟨⟨"# list".toList, by decide⟩, by decide⟩) .returnAndFeed <|
      .line (.named ⟨⟨['\t', ' '], by decide⟩, rfl⟩
        { text := "app/model/Order".toList
          unbroken := by decide
          ne_nil := by decide
          comma_not_mem := by decide
          starts := fun _ h => Option.some.inj (h : some 'a' = some _) ▸ rfl
          ends := fun _ h => Option.some.inj (h : some 'r' = some _) ▸ rfl
          not_hash := by decide
          not_slashes := by decide }
        ⟨⟨[' '], by decide⟩, rfl⟩ (some ⟨"1, 2".toList, by decide⟩)) (.boundary '\u2028' rfl) <|
      .line (.unnamed .empty ⟨⟨[], by decide⟩, by decide⟩) .returnAndFeed <|
      .last (.unnamed .empty ⟨⟨", none".toList, by decide⟩, by decide⟩)) rfl

end AcceptList

end Gatekeeper
