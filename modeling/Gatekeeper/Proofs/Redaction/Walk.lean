import Gatekeeper.Proofs.Redaction.Rewriting
import Mathlib.Data.List.Chain

/-!
# Walking over a line by position

A line can be gone over by a cursor that is moved from position to position: behind a run of
whitespace, behind a pair where one is read, or else behind a whole word. On its way the cursor
looks at the character in front of its position, and takes it for granted that a word stands where
no pair does. Main statement: on every line both are there whenever they are needed, each turn moves
the cursor on within the line, and the walk ends with the pairs that the scan finds, from which the
line is redacted (`exists_walksThrough`).
-/

namespace Gatekeeper.Redaction

variable {line u rest run : Text} {p : Char → Bool} {i : Nat}

/-- Where a walk stands, and whether it has met nothing but whitespace yet. -/
structure Cursor where
  position : Nat
  fresh : Bool
  deriving DecidableEq

/-- What a turn may miss: the character in front of the cursor, or a word to skip. -/
inductive Lapse
  | character
  | word

structure Turn where
  next : Cursor
  found : Option Found

def runAt? (p : Char → Bool) (line : Text) (i : Nat) : Option Text :=
  match (line.drop i).takeWhile p with
  | [] => none
  | c :: run => some (c :: run)

namespace Cursor

def start : Cursor := ⟨0, true⟩

/-- Whether the cursor stands where a word may start. -/
def atBoundary (t : Text) (c : Cursor) : Except Lapse Bool :=
  if c.position = 0 then .ok true
  else
    match t[c.position - 1]? with
    | some b => .ok (Text.isSpace b)
    | none => .error .character

def pairAt? (line : Text) (c : Cursor) : Option Pair :=
  (Pair.read? c.fresh (line.drop c.position)).map Prod.fst

def turn (line : Text) (c : Cursor) : Except Lapse Turn :=
  match runAt? Text.isSpace line c.position with
  | some gap => .ok ⟨⟨c.position + gap.length, c.fresh⟩, none⟩
  | none =>
    match c.atBoundary line with
    | .error lapse => .error lapse
    | .ok boundary =>
      match if boundary then c.pairAt? line else none with
      | some p => .ok ⟨⟨c.position + p.text.length, false⟩, some ⟨p, c.position⟩⟩
      | none =>
        match runAt? isInk line c.position with
        | some word => .ok ⟨⟨c.position + word.length, false⟩, none⟩
        | none => .error .word

/-- Whether a turn can be made, and what it comes to. -/
structure Proceeds (line : Text) (c : Cursor) : Prop where
  boundary : ∃ b, c.atBoundary line = .ok b
  word : runAt? Text.isSpace line c.position = none →
    ∃ w, runAt? isInk line c.position = some w
  turn : ∃ t, c.turn line = .ok t ∧ c.position < t.next.position ∧
    t.next.position ≤ line.length ∧
    ∀ f ∈ t.found, f.start = c.position ∧ f.start < f.stop ∧ f.stop = t.next.position

end Cursor

/-- The turns of a walk that is never held up, in front of the end of the line. -/
inductive Walks (line : Text) : Cursor → List Turn → Prop
  | done {c : Cursor} : line.length ≤ c.position → Walks line c []
  | turn {c : Cursor} {t : Turn} {turns : List Turn} : c.position < line.length →
      c.turn line = .ok t → Walks line t.next turns → Walks line c (t :: turns)

structure WalksThrough (line : Text) (turns : List Turn) : Prop where
  walks : Walks line .start turns
  unique : ∀ turns', Walks line .start turns' → turns' = turns
  advances : (0 :: turns.map fun t => t.next.position).IsChain (· < ·)
  within : ∀ t ∈ turns, t.next.position ≤ line.length
  short : turns.length ≤ line.length
  finds : turns.filterMap Turn.found = findAll line
  spans : ∀ f ∈ findAll line, f.start < f.stop
  redacts : ∀ (S : Text → Bool) (token : Text),
    splice token line 0 ((turns.filterMap Turn.found).filter fun f => f.pair.isHidden S) =
      redactLine S token line

/-! ## One turn -/

theorem runAt?_eq_some_iff :
    runAt? p line i = some run ↔ (line.drop i).takeWhile p = run ∧ run ≠ [] := by
  unfold runAt?
  split
  · next h => simp [h, eq_comm]
  · next c k h =>
    rw [h, Option.some_inj, iff_self_and]
    rintro rfl
    exact List.cons_ne_nil c k

theorem runAt?_eq_none_iff : runAt? p line i = none ↔ Stops p (line.drop i) := by
  unfold runAt?
  cases hdrop : line.drop i with
  | nil => simp
  | cons c k => by_cases hc : p c = true <;> simp [hc]

theorem add_length_run_le (h : runAt? p line i = some run) :
    0 < run.length ∧ i + run.length ≤ line.length := by
  obtain ⟨hrun, hne⟩ := runAt?_eq_some_iff.1 h
  have hle : run.length ≤ (line.drop i).length := by
    rw [← hrun]
    exact (List.takeWhile_prefix p).length_le
  have hpos := List.length_pos_iff.2 hne
  rw [List.length_drop] at hle
  omega

namespace Cursor

variable {c : Cursor}

theorem exists_atBoundary (h : c.position < line.length) : ∃ b, c.atBoundary line = .ok b := by
  unfold atBoundary
  split
  · exact ⟨true, rfl⟩
  · have hbefore : c.position - 1 < line.length := by omega
    rw [List.getElem?_eq_getElem hbefore]
    exact ⟨_, rfl⟩

/-- What is no whitespace is ink. -/
theorem exists_word (h : c.position < line.length)
    (hgap : runAt? Text.isSpace line c.position = none) :
    ∃ w, runAt? isInk line c.position = some w := by
  rw [runAt?_eq_none_iff, List.drop_eq_getElem_cons h, stops_cons] at hgap
  rw [← Option.ne_none_iff_exists', Ne, runAt?_eq_none_iff, List.drop_eq_getElem_cons h, stops_cons]
  simp [isInk, hgap]

theorem add_length_pair_le {p : Pair} (h : c.pairAt? line = some p) :
    0 < p.text.length ∧ c.position + p.text.length ≤ line.length := by
  obtain ⟨⟨q, rest⟩, hread, rfl⟩ := Option.map_eq_some_iff.1 h
  have hpos := List.length_pos_iff.2 (Pair.text_ne_nil_of_read? hread)
  have hlength := congrArg List.length (Pair.eq_append_of_read? hread).1
  rw [List.length_drop, List.length_append] at hlength
  refine ⟨hpos, ?_⟩
  dsimp only at hpos hlength ⊢
  omega

/-- Wherever in the line the cursor stands, it can be moved on. -/
theorem proceeds (h : c.position < line.length) : c.Proceeds line where
  boundary := exists_atBoundary h
  word := exists_word h
  turn := by
    unfold turn
    cases hgap : runAt? Text.isSpace line c.position with
    | some gap =>
      obtain ⟨hpos, hle⟩ := add_length_run_le hgap
      exact ⟨_, rfl, Nat.lt_add_of_pos_right hpos, hle, by simp⟩
    | none =>
      obtain ⟨b, hb⟩ := exists_atBoundary h
      simp only [hb]
      cases hpair : if b then c.pairAt? line else none with
      | some p =>
        have hread : c.pairAt? line = some p := by
          rw [Option.ite_none_right_eq_some] at hpair
          exact hpair.2
        obtain ⟨hpos, hle⟩ := add_length_pair_le hread
        refine ⟨_, rfl, Nat.lt_add_of_pos_right hpos, hle, ?_⟩
        rintro f hf
        obtain rfl := Option.some.inj hf
        exact ⟨rfl, Nat.lt_add_of_pos_right hpos, rfl⟩
      | none =>
        obtain ⟨w, hw⟩ := exists_word h hgap
        obtain ⟨hpos, hle⟩ := add_length_run_le hw
        simp only [hw]
        exact ⟨_, rfl, Nat.lt_add_of_pos_right hpos, hle, by simp⟩

theorem moves {t : Turn} (h : c.position < line.length) (hturn : c.turn line = .ok t) :
    c.position < t.next.position ∧ t.next.position ≤ line.length := by
  obtain ⟨t', ht', hmoved, hle, -⟩ := (proceeds h).turn
  obtain rfl := Except.ok.inj (hturn.symm.trans ht')
  exact ⟨hmoved, hle⟩

end Cursor

/-! ## The whole walk -/

namespace Walks

variable {c : Cursor} {turns turns' : List Turn}

theorem unique (h : Walks line c turns) (h' : Walks line c turns') : turns = turns' := by
  induction h generalizing turns' with
  | done hend =>
    cases h' with
    | done => rfl
    | turn hlt => exact absurd hlt (Nat.not_lt.2 hend)
  | turn hlt hturn _ ih =>
    cases h' with
    | done hend => exact absurd hlt (Nat.not_lt.2 hend)
    | turn _ hturn' hrest' =>
      obtain rfl := Except.ok.inj (hturn.symm.trans hturn')
      rw [ih hrest']

theorem advances (h : Walks line c turns) :
    (c.position :: turns.map fun t => t.next.position).IsChain (· < ·) := by
  induction h with
  | done => exact .singleton _
  | turn hlt hturn _ ih =>
    exact List.isChain_cons_cons.2 ⟨(Cursor.moves hlt hturn).1, ih⟩

theorem within (h : Walks line c turns) : ∀ t ∈ turns, t.next.position ≤ line.length := by
  induction h with
  | done => simp
  | turn hlt hturn _ ih =>
    exact List.forall_mem_cons.2 ⟨(Cursor.moves hlt hturn).2, ih⟩

theorem length_le (h : Walks line c turns) : turns.length ≤ line.length - c.position := by
  induction h with
  | done => exact Nat.zero_le _
  | turn hlt hturn _ ih =>
    have hmoves := Cursor.moves hlt hturn
    rw [List.length_cons]
    omega

end Walks

/-! ## The walk and the scan -/

theorem runAt?_append (hne : run ≠ []) (hall : ∀ c ∈ run, p c = true) (hstop : Stops p rest) :
    runAt? p (u ++ (run ++ rest)) u.length = some run := by
  rw [runAt?_eq_some_iff, List.drop_left, hstop.takeWhile_append, List.takeWhile_eq_self_iff.2 hall]
  exact ⟨rfl, hne⟩

theorem runAt?_append_eq_none (hstop : Stops p rest) : runAt? p (u ++ rest) u.length = none := by
  rwa [runAt?_eq_none_iff, List.drop_left]

theorem Place.Follows.all_isSpace_getLast? {place : Place} (h : place.Follows u) :
    u.getLast?.all Text.isSpace = decide (place ≠ .inside) := by
  cases place with
  | opening =>
    refine (Option.all_eq_true _ _).2 fun c hc => ?_
    exact List.all_eq_true.1 h c (List.mem_of_mem_getLast? hc)
  | boundary =>
    obtain ⟨-, c, hc, hspace⟩ := h
    rw [Option.mem_def.1 hc]
    exact hspace
  | inside =>
    obtain ⟨c, hc, hink⟩ := h
    rw [Option.mem_def.1 hc]
    simpa [isInk] using hink

namespace Cursor

variable {c : Cursor} {place : Place} {q : Piece} {pieces : List Piece}

/-- The cursor stands where the scan does when it has read `u`. -/
structure At (c : Cursor) (place : Place) (u rest : Text) : Prop where
  position : c.position = u.length
  fresh : c.fresh = decide (place = .opening)
  follows : rest ≠ [] → place.Follows u

theorem At.start (line : Text) : start.At .opening [] line where
  position := rfl
  fresh := rfl
  follows := fun _ => rfl

/-- The look at the character in front agrees with what the scan keeps of where it stands. -/
theorem At.atBoundary (h : c.At place u rest) (hrest : rest ≠ []) :
    c.atBoundary (u ++ rest) = .ok (decide (place ≠ .inside)) := by
  rw [← (h.follows hrest).all_isSpace_getLast?, Cursor.atBoundary, h.position]
  rcases List.eq_nil_or_concat u with rfl | ⟨v, b, rfl⟩
  · rfl
  · simp

theorem At.pairAt? (h : c.At place u rest) :
    (if decide (place ≠ .inside) then c.pairAt? (u ++ rest) else none) =
      (place.pair? rest).map Prod.fst := by
  cases place <;> simp [Cursor.pairAt?, Place.pair?, h.position, h.fresh]

/-- A turn takes the cursor over the piece that the scan cuts off. -/
theorem At.turn (h : c.At place u (q.text ++ rest)) (hq : q.Fits place rest) :
    c.turn (u ++ (q.text ++ rest)) =
      .ok ⟨⟨(u ++ q.text).length, decide (place.after q = .opening)⟩,
        q.pair?.map (⟨·, u.length⟩)⟩ := by
  have hrest : q.text ++ rest ≠ [] := by simp [hq.text_ne_nil]
  have hboundary := h.atBoundary hrest
  have hpair := h.pairAt?
  unfold Cursor.turn
  rw [h.position, List.length_append]
  cases q with
  | gap g =>
    obtain ⟨hne, hblank, hstop⟩ := hq
    have hgap := runAt?_append (u := u) hne (List.all_eq_true.1 hblank) hstop
    simp only [Piece.text, hgap, h.fresh]
    cases place <;> rfl
  | word w =>
    obtain ⟨hne, hink, hstop, hnone⟩ := hq
    have hstart : Stops Text.isSpace (w ++ rest) := by
      rw [stops_append_of_ne_nil hne]
      obtain ⟨d, k, rfl⟩ := List.exists_cons_of_ne_nil hne
      simpa [isInk] using hink d
    have hnone' : place.pair? (w ++ rest) = none := (Place.pair?_append_eq_none_iff hstop w).2 hnone
    rw [Piece.text, hnone', Option.map_none] at hpair
    rw [Piece.text] at hboundary
    have hword := runAt?_append (u := u) hne hink hstop
    simp only [Piece.text, runAt?_append_eq_none hstart, hboundary, hpair, hword]
    rfl
  | pair p =>
    obtain ⟨hwf, hallows, hends⟩ := hq
    have hread : place.pair? (p.text ++ rest) = some (p, rest) :=
      Place.pair?_eq_some_iff.2 ⟨rfl, hwf, hallows, hends⟩
    rw [Piece.text, hread, Option.map_some] at hpair
    rw [Piece.text] at hboundary
    have hstart := runAt?_append_eq_none (u := u) (hwf.stops_isSpace rest)
    simp only [Piece.text, hstart, hboundary, hpair]
    rfl

theorem At.append_piece (h : c.At place u (q.text ++ rest)) (hq : q.Fits place rest) :
    At ⟨(u ++ q.text).length, decide (place.after q = .opening)⟩ (place.after q) (u ++ q.text)
      rest where
  position := rfl
  fresh := rfl
  follows := by
    intro hrest
    exact (h.follows (by simp [hrest])).append_piece hq hrest

end Cursor

theorem Walks.exists_of_fitting {c : Cursor} {place : Place} {pieces : List Piece}
    (h : c.At place u (flatten pieces)) (hpieces : Fitting place pieces) :
    ∃ turns, Walks (u ++ flatten pieces) c turns ∧
      turns.filterMap Turn.found = locate u.length pieces := by
  induction pieces generalizing c place u with
  | nil =>
    refine ⟨[], .done ?_, rfl⟩
    simp [h.position]
  | cons q pieces ih =>
    obtain ⟨hq, hpieces⟩ := hpieces
    rw [flatten_cons] at h ⊢
    obtain ⟨turns, hwalks, hfound⟩ := ih (h.append_piece hq) hpieces
    rw [List.append_assoc] at hwalks
    have hlt : c.position < (u ++ (q.text ++ flatten pieces)).length := by
      have hpos := List.length_pos_iff.2 hq.text_ne_nil
      simp only [h.position, List.length_append]
      omega
    refine ⟨_, .turn hlt (h.turn hq) hwalks, ?_⟩
    rw [List.length_append] at hfound
    cases q <;> simp [Piece.pair?, locate, hfound, Piece.text]

/-- Whatever the line is, a walk over it comes to its end and is held up nowhere. -/
theorem exists_walksThrough (line : Text) :
    (∀ c : Cursor, c.position < line.length → c.Proceeds line) ∧
      ∃ turns, WalksThrough line turns := by
  refine ⟨fun c => c.proceeds, ?_⟩
  have hstart : Cursor.start.At .opening [] (flatten (scan line)) := .start _
  obtain ⟨turns, hwalks, hfinds⟩ := Walks.exists_of_fitting hstart (fitting_scanFrom .opening line)
  rw [List.nil_append, flatten_scan] at hwalks
  have hfinds : turns.filterMap Turn.found = findAll line := hfinds
  exact ⟨turns, {
    walks := hwalks
    unique := fun _ h => h.unique hwalks
    advances := hwalks.advances
    within := hwalks.within
    short := hwalks.length_le
    finds := hfinds
    spans := by
      intro f hf
      have hpos := List.length_pos_iff.2 (soundIn_of_found hf).text_ne_nil
      exact Nat.lt_add_of_pos_right hpos
    redacts := by
      intro S token
      rw [hfinds, redactLine_eq_splice, hiddenFound] }⟩

end Gatekeeper.Redaction
