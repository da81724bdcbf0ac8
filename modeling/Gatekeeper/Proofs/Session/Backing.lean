import Gatekeeper.Proofs.Configuration.Retry
import Gatekeeper.Proofs.Guard.Mediation
import Gatekeeper.Proofs.Session.Mediation

/-!
# One screen, two backings

A screen is applied by the readers that start out with it, or by a hook, and then new readers start
out without one. Either way a reader that was opened behind the attempt and is given no other screen
has each reference judged once (`Process.AsksOnce`). Main statement: such readers answer alike on
both backings, with the same notices, and a rejected class is reported once (`alike_backings`).
-/

namespace Gatekeeper

open Gatekeeper.Configuration (Circumstances Variables)
open Guard (Backing Catalog Instruction Item Loaded Naming Opening Process Reader ReaderScreen
  Reference Screener inspect)
open Screening (NameSet Screen element)

/-! ## What a configuration screens by -/

/-- A rejection is reported once, and nothing else is. -/
def Screening.Screen.ReportsOnce (screen : Screen) : Prop :=
  ∀ c, screen.notices c =
    if screen.verdict c = .rejected then [.classRejected c.elementName] else []

theorem Screening.Screen.reportsOnce_of_ofPatternBeyond {names : NameSet} {source : Text}
    {screen : Screen} (h : Screen.ofPatternBeyond names source = .ok screen) :
    screen.ReportsOnce := by
  unfold ofPatternBeyond ofPattern at h
  cases hread : Screening.Pattern.read source with
  | error fault => simp [hread] at h
  | ok p =>
    simp only [hread, Except.ok.injEq] at h
    subst h
    intro c
    by_cases hc : settles names c = true
    · simp [notices, verdict, hc]
    · by_cases hp : p.verdict c = .rejected <;> simp [notices, verdict, hc, hp]

theorem Guard.Origin.reportsOnce_of_make {origin : Guard.Origin} {k : Circumstances}
    {screen : Screen} (h : (origin.make k).2 = .ok screen) : screen.ReportsOnce := by
  cases origin with
  | settings s supply =>
    obtain ⟨contributors, _, h⟩ := Reported.andThen_eq_ok_iff.1 h
    obtain ⟨names, _, h⟩ := Reported.andThen_eq_ok_iff.1 h
    exact Screen.reportsOnce_of_ofPatternBeyond h
  | givenPattern pattern =>
    cases pattern with
    | none => simp [Guard.Origin.make, Configuration.screenOfVariable] at h
    | some pattern => exact Screen.reportsOnce_of_ofPatternBeyond h

/-- What there is to report about how an operation ended: a class that was rejected. -/
def rejections {α : Type} : Except Fault α → List Notice
  | .error (.classRejected name) => [.classRejected (some (element name))]
  | _ => []

/-- An operation reported the rejection that it ended with, once, and nothing else. -/
def Reported.OfRejection {α : Type} (r : Reported α) : Prop := r.1 = rejections r.2

namespace Reported.OfRejection

variable {α β : Type}

theorem success (a : α) : (Reported.success a).OfRejection := rfl

theorem of_notices_eq_nil {r : Reported α} (hnotices : r.1 = [])
    (hresult : ∀ name, r.2 ≠ .error (.classRejected name)) : r.OfRejection := by
  rw [Reported.OfRejection, hnotices, rejections.eq_def]
  split
  · next name heq => exact absurd heq (hresult name)
  · rfl

theorem andThen {r : Reported α} {next : α → Reported β} (h : r.OfRejection)
    (hnext : ∀ a, r.2 = .ok a → (next a).OfRejection) : (r.andThen next).OfRejection := by
  obtain ⟨notices, fault | a⟩ := r
  · obtain rfl : notices = rejections (.error fault : Except Fault α) := h
    cases fault <;> rfl
  · obtain rfl : notices = [] := h
    exact (Reported.success_andThen a next).symm ▸ hnext a rfl

end Reported.OfRejection

namespace Guard

variable {p q : Process} {screen : Screen} {catalog : Catalog} {s t : ReaderScreen} {n : Naming}

/-! ## Judging a reference -/

theorem ofRejection_inspect (h : screen.ReportsOnce) (name : Text) :
    (inspect (some screen) name).OfRejection := by
  have hnotices : screen.notices (.ofName name) =
      if screen.verdict (.ofName name) = .rejected then [.classRejected (some (element name))]
      else [] := h _
  by_cases hrejected : screen.verdict (.ofName name) = .rejected <;>
    simp [Reported.OfRejection, inspect, hnotices, hrejected, rejections]

/-- A new reader of the process has every reference judged by the screen, and only once. -/
def Process.AsksOnce (p : Process) (screen : Screen) : Prop :=
  ∀ catalog n r, p.resolve catalog (.own p.state.streamScreen) n r =
    (inspect (some screen) r.dotted).andThen fun _ => .ofResult (catalog.resolve n r)

theorem Process.asksOnce_screened {backing : Backing} (h : backing.Enforces) :
    (({} : Process).screened backing screen).AsksOnce screen := by
  intro catalog n r
  cases backing with
  | streams =>
    -- The reader asks, and there is no hook.
    have hhooks : (({} : Process).screened .streams screen).inspectByHooks r.dotted 0 =
        .success () := rfl
    change (inspect (some screen) r.dotted).andThen (fun _ =>
      ((({} : Process).screened .streams screen).inspectByHooks r.dotted 0).andThen _) = _
    simp only [hhooks, Reported.success_andThen]
  | hook =>
    -- The reader has nothing to ask, and the one hook asks the screen of the process.
    have hhooks : (({} : Process).screened .hook screen).inspectByHooks r.dotted 1 =
        inspect (some screen) r.dotted := Reported.andThen_success _
    change (Reported.success ()).andThen (fun _ =>
      ((({} : Process).screened .hook screen).inspectByHooks r.dotted 1).andThen _) = _
    simp only [hhooks, Reported.success_andThen]
  | failingHook registered => exact absurd h (Backing.not_enforces_failingHook registered)

theorem Process.AsksOnce.ofRejection_resolve (h : p.AsksOnce screen) (honce : screen.ReportsOnce)
    (catalog : Catalog) (n : Naming) (r : Reference) :
    (p.resolve catalog (.own p.state.streamScreen) n r).OfRejection := by
  rw [h catalog n r]
  exact (ofRejection_inspect honce r.dotted).andThen fun _ _ =>
    .of_notices_eq_nil rfl fun name => catalog.resolve_ne_classRejected n r name

/-! ## Loading -/

namespace Process

/-- A load depends on its process and its screen only by how they resolve references. -/
theorem follow_congr (h : ∀ n r, p.resolve catalog s n r = q.resolve catalog t n r) (n : Naming)
    (stack : List Item) (instructions : List Instruction) :
    p.follow catalog s n stack instructions = q.follow catalog t n stack instructions := by
  fun_induction Process.follow p catalog s n stack instructions with
  | case4 n stack r rest notices name hresolve ih =>
    rw [follow, ← h, hresolve, ih]
  | case5 n stack r rest notices fault hresolve =>
    rw [follow, ← h, hresolve]
  | _ => simp_all [follow]

theorem ofRejection_follow (h : ∀ n r, (p.resolve catalog s n r).OfRejection) (n : Naming)
    (stack : List Item) (instructions : List Instruction) :
    (p.follow catalog s n stack instructions).reported.OfRejection := by
  fun_induction Process.follow p catalog s n stack instructions with
  | case2 n stack protocol rest ih => exact ih
  | case3 n stack rest ih => exact ih
  | case4 n stack r rest notices name hresolve ih =>
    have hreported := h n r
    rw [hresolve] at hreported
    obtain rfl : notices = [] := hreported
    exact ih
  | case5 n stack r rest notices fault hresolve =>
    have hreported := h n r
    rw [hresolve] at hreported
    cases fault <;> exact hreported
  | case6 n rest name names below ih => exact ih
  | _ => exact .of_notices_eq_nil rfl (by simp [Reported.failure, Reported.success])

end Process

/-! ## Setting the screen of a fresh process -/

namespace Process

theorem configure_fresh_of_made {backing : Backing} {make : Reported Screen}
    (henforces : backing.Enforces) (h : make.2 = .ok screen) :
    (({} : Process).configure (.ok backing) make).reported.2 = .ok true ∧
      (({} : Process).configure (.ok backing) make).process =
        ({} : Process).screened backing screen := by
  obtain ⟨notices, result⟩ := make
  obtain rfl : result = .ok screen := h
  cases backing with
  | streams => exact ⟨rfl, rfl⟩
  | hook => exact ⟨rfl, rfl⟩
  | failingHook registered =>
    exact absurd henforces (Backing.not_enforces_failingHook registered)

theorem made_of_configure {p : Process} {backing : Except Fault Backing} {make : Reported Screen}
    (h : (p.configure backing make).reported.2 = .ok true) : ∃ screen, make.2 = .ok screen := by
  obtain ⟨notices, fault | screen⟩ := make
  · cases backing with
    | error lack => cases lack <;> simp [configure, attempt, settle, Reported.failure] at h
    | ok backing => cases fault <;> simp [configure, attempt, settle] at h
  · exact ⟨screen, rfl⟩

end Process

/-- The backing has no part in what screen is made. -/
theorem Origin.make_congr_backing (origin : Origin) (b b' : Backing)
    (contributors : Except Fault (List Contributor)) (permitted : Bool) :
    origin.make ⟨.ok b, contributors, permitted⟩ =
      origin.make ⟨.ok b', contributors, permitted⟩ := by
  cases origin <;> rfl

theorem Screener.attempt_eq_configure (s : Screener) (k : Circumstances) (p : Process)
    (bindings : Variables) :
    (s.attempt k p bindings).reported = (p.configure k.backing (s.origin.make k)).reported ∧
      (s.attempt k p bindings).site.process =
        (p.configure k.backing (s.origin.make k)).process := by
  obtain ⟨origin, outcome⟩ := s
  cases origin <;> exact ⟨rfl, rfl⟩

end Guard

namespace Session

variable {host : Host} {p q : Process} {r u : Reader} {s t : Session} {screen : Screen}

/-! ## Readers on two processes -/

/-- A request that only opens or uses readers, each with the screen that it starts out with. -/
def Request.OfReaders : Request → Prop
  | .openReader _ opening => opening.plain = false
  | .find _ _ => True
  | .load _ => True
  | .loadOnce opening screen => opening.plain = false ∧ screen = none
  | _ => False

/-- What a program sees of an answer about classes: their names or a fault, and the notices. -/
def Answered.seen (a : Answered) : Reported (Option (List Text)) :=
  a.2.andThen fun
    | .names names => .success (some names)
    | _ => .success none

/-- Readers of two processes stand at the same place, each with the screen that new readers of its
process start out with. -/
structure AlikeReaders (p q : Process) (r u : Reader) : Prop where
  startsLeft : r.screen = .own p.state.streamScreen
  startsRight : u.screen = .own q.state.streamScreen
  formerNames : r.formerNames = u.formerNames
  unread : r.unread = u.unread
  protocol : r.protocol = u.protocol

/-- The new readers of two sessions ask the same screen, and those that are open stand at the same
places. -/
structure Alike (screen : Screen) (s t : Session) : Prop where
  asksLeft : s.process.AsksOnce screen
  asksRight : t.process.AsksOnce screen
  readers : ∀ id,
    Option.Rel (AlikeReaders s.process t.process) (s.readers.get? id) (t.readers.get? id)

/-- Two sessions stay alike and show the same, and report no more than the rejection they show. -/
structure AlikeAnswers (screen : Screen) (a b : Answered) : Prop where
  sessions : Alike screen a.1 b.1
  seen : a.seen = b.seen
  ofRejection : a.seen.OfRejection

theorem Answered.seen_names {α : Type} (s : Session) (x : Reported α) (names : α → List Text) :
    Answered.seen (s, x.andThen fun a => .success (.names (names a))) =
      x.andThen fun a => .success (some (names a)) := by
  simp only [Answered.seen, Reported.andThen_assoc, Reported.success_andThen]

theorem alikeReaders_openReader (opening : Opening) (h : opening.plain = false) (p q : Process) :
    AlikeReaders p q (p.openReader opening) (q.openReader opening) := by
  refine ⟨?_, ?_, rfl, rfl, rfl⟩ <;> simp [Process.openReader, h]

theorem AlikeReaders.afterLoad (h : AlikeReaders p q r u) (l : Loaded) :
    AlikeReaders p q (r.afterLoad l) (u.afterLoad l) :=
  ⟨h.startsLeft, h.startsRight, h.formerNames, rfl, rfl⟩

namespace Alike

theorem resolve_eq (h : Alike screen s t) (catalog : Catalog) (n : Naming) (reference : Reference) :
    s.process.resolve catalog (.own s.process.state.streamScreen) n reference =
      t.process.resolve catalog (.own t.process.state.streamScreen) n reference :=
  (h.asksLeft catalog n reference).trans (h.asksRight catalog n reference).symm

theorem find_eq (h : Alike screen s t) (hr : AlikeReaders s.process t.process r u)
    (catalog : Catalog) (reference : Reference) :
    r.find s.process catalog reference = u.find t.process catalog reference := by
  rw [Reader.find, Reader.find, Reader.naming, Reader.naming, hr.startsLeft, hr.startsRight,
    hr.formerNames, hr.protocol]
  exact h.resolve_eq catalog _ reference

theorem load_eq (h : Alike screen s t) (hr : AlikeReaders s.process t.process r u)
    (catalog : Catalog) : r.load s.process catalog = u.load t.process catalog := by
  rw [Reader.load, Reader.load, hr.startsLeft, hr.startsRight, hr.formerNames, hr.unread]
  exact Process.follow_congr (h.resolve_eq catalog) _ _ _

theorem ofRejection_find (h : Alike screen s t) (honce : screen.ReportsOnce)
    (hr : AlikeReaders s.process t.process r u) (catalog : Catalog) (reference : Reference) :
    (r.find s.process catalog reference).OfRejection := by
  rw [Reader.find, hr.startsLeft]
  exact h.asksLeft.ofRejection_resolve honce catalog _ reference

theorem ofRejection_load (h : Alike screen s t) (honce : screen.ReportsOnce)
    (hr : AlikeReaders s.process t.process r u) (catalog : Catalog) :
    (r.load s.process catalog).reported.OfRejection := by
  rw [Reader.load, hr.startsLeft]
  exact Process.ofRejection_follow (h.asksLeft.ofRejection_resolve honce catalog) _ _ _

theorem withReader (h : Alike screen s t) (id : Text)
    (hr : AlikeReaders s.process t.process r u) :
    Alike screen (s.withReader id r) (t.withReader id u) := by
  refine ⟨h.asksLeft, h.asksRight, fun other => ?_⟩
  by_cases hother : other = id
  · subst hother
    simpa [Session.withReader] using Option.Rel.some hr
  · simpa [Session.withReader, Table.get?_put_of_ne _ hother] using h.readers other

theorem answers_reader (h : Alike screen s t) (id : Text) {next next' : Reader → Answered}
    (hnext : ∀ r u, AlikeReaders s.process t.process r u →
      AlikeAnswers screen (next r) (next' u)) :
    AlikeAnswers screen (s.given (known (s.readers.get? id)) next)
      (t.given (known (t.readers.get? id)) next') := by
  have hreaders := h.readers id
  cases hs : s.readers.get? id with
  | none =>
    rw [hs] at hreaders
    cases ht : t.readers.get? id with
    | none => exact ⟨h, rfl, rfl⟩
    | some u => rw [ht] at hreaders; cases hreaders
  | some r =>
    rw [hs] at hreaders
    cases ht : t.readers.get? id with
    | none => rw [ht] at hreaders; cases hreaders
    | some u =>
      rw [ht] at hreaders
      cases hreaders with
      | some hr => exact hnext r u hr

/-- Classes that both sessions restore in the same way are answered alike. -/
theorem answers_names {α : Type} {s' t' : Session} (h : Alike screen s' t') {x y : Reported α}
    (heq : x = y) (hx : x.OfRejection) (names : α → List Text) :
    AlikeAnswers screen (s', x.andThen fun a => .success (.names (names a)))
      (t', y.andThen fun a => .success (.names (names a))) := by
  refine ⟨h, ?_, ?_⟩
  · rw [Answered.seen_names, Answered.seen_names, heq]
  · rw [Answered.seen_names]
    exact hx.andThen fun a _ => .success _

end Alike

theorem Alike.answers_handle (host : Host) (h : Alike screen s t) (honce : screen.ReportsOnce)
    {q : Request} (hq : q.OfReaders) : AlikeAnswers screen (s.handle host q) (t.handle host q) := by
  cases q with
  | openReader id opening =>
    exact ⟨h.withReader id (alikeReaders_openReader opening hq _ _), rfl, rfl⟩
  | find id reference =>
    exact h.answers_reader id fun r u hr =>
      h.answers_names (h.find_eq hr _ _) (h.ofRejection_find honce hr _ _) fun name => [name]
  | load id =>
    refine h.answers_reader id fun r u hr => ?_
    have hload := h.load_eq hr host.catalog
    have hreaders := hr.afterLoad (r.load s.process host.catalog)
    rw [← hload]
    exact (h.withReader id hreaders).answers_names rfl
      (h.ofRejection_load honce hr _) fun names => names
  | loadOnce opening given =>
    obtain ⟨plain, formerNames, payload⟩ := opening
    obtain ⟨rfl, rfl⟩ := hq
    have hr := alikeReaders_openReader ⟨false, formerNames, payload⟩ rfl s.process t.process
    exact h.answers_names (congrArg Loaded.reported (h.load_eq hr _))
      (h.ofRejection_load honce hr _) fun names => names
  | _ => exact hq.elim

theorem Alike.seen_run (h : Alike screen s t) (honce : screen.ReportsOnce)
    {requests : List Request} (hrequests : ∀ q ∈ requests, q.OfReaders) :
    (run host s requests).map Answered.seen = (run host t requests).map Answered.seen ∧
      ∀ a ∈ run host s requests, a.seen.OfRejection := by
  induction requests generalizing s t with
  | nil => exact ⟨rfl, by simp [run]⟩
  | cons q requests ih =>
    rw [List.forall_mem_cons] at hrequests
    obtain ⟨hsessions, hseen, hreported⟩ := h.answers_handle host honce hrequests.1
    obtain ⟨hrest, hreports⟩ := ih hsessions hrequests.2
    simp only [run, List.map_cons, List.forall_mem_cons]
    exact ⟨by rw [hseen, hrest], hreported, hreports⟩

/-! ## Two runs -/

/-- A session without readers whose process comes out of an attempt. -/
def behind (s : Session) (attempted : Configuration.Attempted) : Session :=
  { s with process := attempted.site.process, readers := .empty }

end Session

/-- Two attempts set the same screen, by which new readers have each reference judged once. No such
readers tell the attempts apart, and no rejection is reported but the one that a request ends
with. -/
structure Configuration.SameToReaders (a b : Configuration.Attempted) : Prop where
  asks : ∃ screen, a.site.process.state.screen = some screen ∧
    b.site.process.state.screen = some screen ∧
    a.site.process.AsksOnce screen ∧ b.site.process.AsksOnce screen
  seen : ∀ (host : Host) (s : Session) (requests : List Session.Request),
    (∀ q ∈ requests, q.OfReaders) →
      (Session.run host (s.behind a) requests).map Session.Answered.seen =
        (Session.run host (s.behind b) requests).map Session.Answered.seen
  ofRejection : ∀ (host : Host) (s : Session) (requests : List Session.Request),
    (∀ q ∈ requests, q.OfReaders) →
      ∀ answer ∈ Session.run host (s.behind a) requests, answer.seen.OfRejection

namespace Guard.Screener

variable (s : Screener) (contributors : Except Fault (List Contributor)) (permitted : Bool)
  (bindings : Variables)

/-- An attempt on a process that nothing was done to before. -/
def first (backing : Backing) : Configuration.Attempted :=
  s.attempt ⟨.ok backing, contributors, permitted⟩ {} bindings

theorem exists_screened_of_first (backing : Backing)
    (h : (s.first contributors permitted bindings backing).reported.2 = .ok true) :
    ∃ screen, screen.ReportsOnce ∧ ∀ b : Backing, b.Enforces →
      (s.first contributors permitted bindings b).reported.2 = .ok true ∧
        (s.first contributors permitted bindings b).site.process =
          ({} : Process).screened b screen := by
  rw [first, (s.attempt_eq_configure _ _ _).1] at h
  obtain ⟨screen, hmade⟩ := Process.made_of_configure h
  refine ⟨screen, Origin.reportsOnce_of_make hmade, fun b hb => ?_⟩
  rw [s.origin.make_congr_backing backing b] at hmade
  obtain ⟨hreported, hprocess⟩ :=
    s.attempt_eq_configure ⟨.ok b, contributors, permitted⟩ {} bindings
  rw [first, hreported, hprocess]
  exact Process.configure_fresh_of_made hb hmade

end Guard.Screener

/-- Whether readers ask or a hook does, the same attempt on a fresh process succeeds, and no reader
that is opened behind it and keeps the screen that it starts out with shows which of the two it
is. -/
theorem alike_backings (s : Screener) (contributors : Except Fault (List Contributor))
    (permitted : Bool) (bindings : Variables) :
    ((s.first contributors permitted bindings .streams).reported.2 = .ok true ↔
      (s.first contributors permitted bindings .hook).reported.2 = .ok true) ∧
    ((s.first contributors permitted bindings .streams).reported.2 = .ok true →
      Configuration.SameToReaders (s.first contributors permitted bindings .streams)
        (s.first contributors permitted bindings .hook)) := by
  refine ⟨⟨fun h => ?_, fun h => ?_⟩, fun h => ?_⟩
  · obtain ⟨screen, -, hfirst⟩ := s.exists_screened_of_first _ _ _ _ h
    exact (hfirst .hook Backing.enforces_hook).1
  · obtain ⟨screen, -, hfirst⟩ := s.exists_screened_of_first _ _ _ _ h
    exact (hfirst .streams Backing.enforces_streams).1
  · obtain ⟨screen, honce, hfirst⟩ := s.exists_screened_of_first _ _ _ _ h
    have hleft := (hfirst .streams Backing.enforces_streams).2
    have hright := (hfirst .hook Backing.enforces_hook).2
    have hasks : ∀ b : Backing, b.Enforces →
        (s.first contributors permitted bindings b).site.process.AsksOnce screen := by
      intro b hb
      rw [(hfirst b hb).2]
      exact Process.asksOnce_screened hb
    have halike (t : Session) : Session.Alike screen
        (t.behind (s.first contributors permitted bindings .streams))
        (t.behind (s.first contributors permitted bindings .hook)) :=
      ⟨hasks _ Backing.enforces_streams, hasks _ Backing.enforces_hook, fun _ => .none⟩
    refine ⟨⟨screen, ?_, ?_, hasks _ Backing.enforces_streams, hasks _ Backing.enforces_hook⟩,
      ?_, ?_⟩
    · rw [hleft]; rfl
    · rw [hright]; rfl
    · exact fun host t requests hrequests => ((halike t).seen_run honce hrequests).1
    · exact fun host t requests hrequests => ((halike t).seen_run honce hrequests).2

def rejectingModuleEvil : Screener := ⟨.givenPattern (some "!evil.**".toList), .unset⟩

/-- A reader loads a class of that module, and another one is asked for it by name. -/
def exploiting : List Session.Request :=
  [.openReader "r".toList ⟨false, true, some ⟨4, [Session.exploit]⟩⟩, .load "r".toList,
    .find "r".toList Session.exploit]

/-- What the requests show behind an attempt with a backing. -/
def exploited (backing : Backing) : List (Reported (Option (List Text))) :=
  (Session.run Session.evilHost ((Session.fresh ⟨true, true⟩ .empty .empty).behind
    (rejectingModuleEvil.first (.ok []) true .empty backing)) exploiting).map Session.Answered.seen

theorem alike_backings_exploiting :
    (rejectingModuleEvil.first (.ok []) true .empty .streams).reported.2 = .ok true ∧
      exploited .streams = exploited .hook ∧
      exploited .hook = [([], .ok none),
        ([.classRejected (some "evil.Exploit".toList)],
          .error (.classRejected "evil.Exploit".toList)),
        ([.classRejected (some "evil.Exploit".toList)],
          .error (.classRejected "evil.Exploit".toList))] := by
  have hset : (rejectingModuleEvil.first (.ok []) true .empty .streams).reported.2 = .ok true := by
    decide +kernel
  have hrequests : ∀ q ∈ exploiting, q.OfReaders := by
    simp [exploiting, Session.Request.OfReaders]
  refine ⟨hset, ?_, by decide +kernel⟩
  exact ((alike_backings rejectingModuleEvil (.ok []) true .empty).2 hset).seen _ _ _ hrequests

end Gatekeeper
