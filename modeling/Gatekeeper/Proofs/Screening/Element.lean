import Gatekeeper.Screening.Screen
import Mathlib.Data.List.Infix

/-!
# Arrays of a class

A class may be asked for as an array of any depth, by a name with array marks at its end or as the
component of another class. A pattern looks at the element name only, and so do the sanctioning
layers in front of it (`Screen.verdict_behind_congr`). Main statement: a pattern behind any number
of layers decides about all arrays of a class as it decides about the class, and its reports name
the class (`screensElement_of_isArrayOf`).
-/

namespace Gatekeeper.Screening

variable {name : Text} {c d : Candidate} {screen : Screen}

def marks (count : Nat) : Text := (List.replicate count arrayMark).flatten

/-- The candidates that stand for a class or for an array of it. -/
inductive IsArrayOf (name : Text) : Candidate → Prop
  | named (count : Nat) (length : Int) :
      IsArrayOf name ⟨some (.named (name ++ marks count)), none, length⟩
  | component (subject : Option ClassRef) (count : Nat) (length : Int) :
      IsArrayOf name ⟨subject, some (.named (name ++ marks count)), length⟩

/-- The outermost layer comes first. -/
def Screen.behind (layers : List NameSet) (inner : Screen) : Screen :=
  layers.foldr .sanctioning inner

def Blueprint.layered (source : Text) (layers : List (List Text)) : Blueprint :=
  layers.foldr (fun names inner => .guarded (some inner) (some names)) (.pattern (some source))

/-- What a screen with a number of layers makes of a candidate, beside what it makes of the class
itself. -/
structure ScreensElement (screen : Screen) (layers : Nat) (name : Text) (c : Candidate) : Prop where
  element : c.elementName = (Candidate.ofName name).elementName
  stripped : ∃ e count, c.elementName = some e ∧ ¬ arrayMark <:+ e ∧ name = e ++ marks count
  verdict : screen.verdict c = screen.verdict (.ofName name)
  notices : screen.notices c = screen.notices (.ofName name)
  reports : screen.notices c =
    List.replicate (if screen.verdict c = .rejected then layers else 0)
      (.classRejected c.elementName)
  messages : ∀ n ∈ screen.notices c, n.level = .critical ∧
    ∀ e ∈ c.elementName, n.message = "Serialization filter is rejecting class ".toList ++ e

/-! ## Element names -/

theorem marks_succ (count : Nat) : marks (count + 1) = marks count ++ arrayMark := by
  rw [marks, List.replicate_succ', List.flatten_append]
  simp [marks]

theorem element_append_marks (name : Text) (count : Nat) :
    element (name ++ marks count) = element name := by
  induction count with
  | zero => simp [marks]
  | succ count ih => rw [marks_succ, ← List.append_assoc, element_append_mark, ih]

theorem exists_dropMarks (t : Text) :
    ∃ count, t = (marks count).reverse ++ dropMarks t ∧ ¬ arrayMark.reverse <+: dropMarks t := by
  -- Each step of the stripping takes one mark off the front of the reversed name.
  fun_induction dropMarks t with
  | case1 rest ih =>
    obtain ⟨count, hrest, hdone⟩ := ih
    refine ⟨count + 1, ?_, hdone⟩
    rw [marks_succ, List.reverse_append, List.append_assoc, ← hrest]
    rfl
  | case2 t hmark =>
    refine ⟨0, rfl, ?_⟩
    rintro ⟨rest, rfl⟩
    exact hmark rest rfl

theorem exists_element (name : Text) :
    ∃ count, name = element name ++ marks count ∧ ¬ arrayMark <:+ element name := by
  obtain ⟨count, hname, hdone⟩ := exists_dropMarks name.reverse
  refine ⟨count, ?_, ?_⟩
  · rw [element, ← List.reverse_inj, List.reverse_append, List.reverse_reverse]
    exact hname
  · rwa [element, ← List.reverse_prefix, List.reverse_reverse]

theorem elementName_of_isArrayOf (h : IsArrayOf name c) : c.elementName = some (element name) := by
  cases h with
  | named count length =>
    simp [Candidate.elementName, ClassRef.name, element_append_marks]
  | component subject count length =>
    simp [Candidate.elementName, ClassRef.name, element_append_marks]

theorem isArrayOf_ofName (name : Text) : IsArrayOf name (.ofName name) := by
  have h : IsArrayOf name ⟨some (.named (name ++ marks 0)), none, -1⟩ := .named 0 (-1)
  rwa [show name ++ marks 0 = name by simp [marks]] at h

/-! ## Screens -/

namespace Screen

theorem settles_congr (h : c.elementName = d.elementName) (names : NameSet) :
    settles names c = settles names d := by
  rw [settles, settles, h]

theorem verdict_behind_congr (h : c.elementName = d.elementName) (layers : List NameSet)
    (p : Pattern) :
    (behind layers (.pattern p)).verdict c = (behind layers (.pattern p)).verdict d := by
  induction layers with
  | nil =>
    have hpattern : p.verdict c = p.verdict d := by rw [Pattern.verdict, Pattern.verdict, h]
    exact hpattern
  | cons names layers ih =>
    have hlayer : behind (names :: layers) (.pattern p) =
        .sanctioning names (behind layers (.pattern p)) := rfl
    rw [hlayer, verdict, verdict, settles_congr h, ih]

/-- A rejection passes through each layer, and each layer reports it once. -/
theorem notices_behind (layers : List NameSet) (p : Pattern) (c : Candidate) :
    (behind layers (.pattern p)).notices c =
      List.replicate
        (if (behind layers (.pattern p)).verdict c = .rejected then layers.length else 0)
        (.classRejected c.elementName) := by
  induction layers with
  | nil =>
    rw [behind, List.foldr_nil, List.length_nil, ite_self]
    rfl
  | cons names layers ih =>
    have hlayer : behind (names :: layers) (.pattern p) =
        .sanctioning names (behind layers (.pattern p)) := rfl
    rw [hlayer, notices, verdict]
    by_cases hsettled : settles names c = true
    · simp [hsettled]
    · by_cases hrejected : (behind layers (.pattern p)).verdict c = .rejected
      · simp [hsettled, hrejected, ih, List.replicate_succ']
      · simp [hsettled, hrejected, ih]

end Screen

theorem build_layered (source : Text) (layers : List (List Text)) :
    (Blueprint.layered source layers).build =
      (Screen.ofPattern source).map (Screen.behind (layers.map NameSet.ofList)) := by
  induction layers with
  | nil =>
    rw [Blueprint.layered, List.foldr_nil, Blueprint.build]
    cases Screen.ofPattern source <;> rfl
  | cons names layers ih =>
    have hlayer : Blueprint.layered source (names :: layers) =
        .guarded (some (Blueprint.layered source layers)) (some names) := rfl
    rw [hlayer, Blueprint.build, ih]
    cases Screen.ofPattern source <;> rfl

theorem exists_behind_of_build {source : Text} {layers : List (List Text)}
    (h : (Blueprint.layered source layers).build = .ok screen) :
    ∃ p, screen = Screen.behind (layers.map NameSet.ofList) (.pattern p) := by
  rw [build_layered, Screen.ofPattern] at h
  cases hp : Pattern.read source with
  | error fault => simp [hp, Except.map] at h
  | ok p =>
    simp only [hp, Except.map, Except.ok.injEq] at h
    exact ⟨p, h.symm⟩

theorem message_classRejected (e : Text) :
    (Notice.classRejected (some e)).message =
      "Serialization filter is rejecting class ".toList ++ e := by
  have hshown : (Value.ofText? (some e)).display = e := rfl
  exact congrArg ("Serialization filter is rejecting class ".toList ++ ·) hshown

/-- However deep an array is and however many layers a screen has, the class of its elements is
decided and reported. -/
theorem screensElement_of_isArrayOf {source : Text} {layers : List (List Text)}
    (hscreen : (Blueprint.layered source layers).build = .ok screen) (h : IsArrayOf name c) :
    ScreensElement screen layers.length name c := by
  have hname := elementName_of_isArrayOf h
  have hsame : c.elementName = (Candidate.ofName name).elementName :=
    hname.trans (elementName_of_isArrayOf (isArrayOf_ofName name)).symm
  obtain ⟨count, hmarks, hunmarked⟩ := exists_element name
  obtain ⟨p, rfl⟩ := exists_behind_of_build hscreen
  have hverdict := Screen.verdict_behind_congr hsame (layers.map NameSet.ofList) p
  have hreports := Screen.notices_behind (layers.map NameSet.ofList) p c
  rw [List.length_map] at hreports
  refine ⟨hsame, ⟨element name, count, hname, hunmarked, hmarks⟩, hverdict, ?_, hreports,
    fun n hn => ?_⟩
  · rw [Screen.notices_behind, Screen.notices_behind, hverdict, hsame]
  rw [hreports] at hn
  obtain rfl := List.eq_of_mem_replicate hn
  refine ⟨rfl, fun e he => ?_⟩
  rw [Option.mem_def.1 he]
  exact message_classRejected e

/-- The class is named `evil.[]`, so that it ends in a mark itself. -/
theorem screensElement_of_isArrayOf_bracketed :
    ∃ screen, (Blueprint.layered "!evil.*;*".toList [["a.b".toList], []]).build = .ok screen ∧
      IsArrayOf "evil.[]".toList
        ⟨some (.member "builtins".toList "list".toList), some (.named "evil.[][][]".toList), 3⟩ ∧
      ScreensElement screen 2 "evil.[]".toList
        ⟨some (.member "builtins".toList "list".toList), some (.named "evil.[][][]".toList), 3⟩ ∧
      screen.notices (.ofName "evil.[]".toList) =
        List.replicate 2 (.classRejected (some "evil.".toList)) := by
  have hbuild : (Blueprint.layered "!evil.*;*".toList [["a.b".toList], []]).build =
      .ok (Screen.behind [.ofList ["a.b".toList], .ofList []]
        (.pattern ⟨"!evil.*;*".toList, [⟨true, "evil.".toList, .one⟩, ⟨false, [], .one⟩]⟩)) := by
    rfl
  have harray : IsArrayOf "evil.[]".toList
      ⟨some (.member "builtins".toList "list".toList), some (.named "evil.[][][]".toList), 3⟩ :=
    .component _ 2 3
  exact ⟨_, hbuild, harray, screensElement_of_isArrayOf hbuild harray, by decide +kernel⟩

end Gatekeeper.Screening
