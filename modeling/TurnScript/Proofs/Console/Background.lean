import TurnScript.Proofs.Console.Calls
import TurnScript.Proofs.Session.Agenda
import TurnScript.Proofs.Store.Refusals

/-!
# The background of a console

What a console has called for goes on in the background: what is ready is taken up, and time passes.
All that is held there is held as calls of a console are, and nothing that goes on there writes to
the archive. The background never ends the console, except that a roll is waited for, and its
failure is met. It comes to a standstill only where a call for a turn is lost.
-/

namespace TurnScript

/-! ## What is held on an agenda -/

namespace Agenda

variable {a next : Agenda} {P Q : String → Activity → Prop} {name : String}

/-- Everything that is held on an agenda is so, with the name of its call. -/
structure Every (P : String → Activity → Prop) (a : Agenda) : Prop where
  ready : ∀ r ∈ a.ready, P r.name r.activity
  waiting : ∀ w ∈ a.waiting, P w.name w.activity

theorem Every.imp (every : a.Every P)
    (implies : ∀ name activity, P name activity → Q name activity) : a.Every Q :=
  ⟨fun r member => implies _ _ (every.ready r member),
    fun w member => implies _ _ (every.waiting w member)⟩

theorem Every.release (every : a.Every P) : a.release.Every P := by
  constructor
  · intro r member
    rcases List.mem_append.mp member with before | released
    · exact every.ready r before
    · obtain ⟨w, waits, found⟩ := List.mem_filterMap.mp released
      obtain ⟨_, -, rfl⟩ := Option.map_eq_some_iff.mp found
      exact every.waiting w waits
  · intro w member
    exact every.waiting w (List.mem_filter.mp member).1

theorem Every.ring (every : a.Every P) (alarm : Alarm) : (a.ring alarm).Every P := by
  constructor
  · intro r member
    rcases List.mem_append.mp member with before | rung
    · exact every.ready r before
    · obtain ⟨w, waits, rfl⟩ := List.mem_map.mp rung
      exact every.waiting w (List.mem_filter.mp waits).1
  · intro w member
    exact every.waiting w (List.mem_filter.mp member).1

theorem Every.foldl_ring (every : a.Every P) (due : List Alarm) :
    (due.foldl Agenda.ring a).Every P := by
  induction due generalizing a with
  | nil => exact every
  | cons alarm due inductionHypothesis => exact inductionHypothesis (every.ring alarm)

theorem Every.passTo (every : a.Every P) (moment : Int) : (a.passTo moment).Every P := by
  have ticked : ({ a.setClock moment with
      alarms := (a.alarms.takeDue moment a.alarms.length).2 } : Agenda).Every P :=
    ⟨every.ready, every.waiting⟩
  exact ticked.foldl_ring _

theorem Every.await (every : a.Every P) {activity : Activity} (holds : P name activity) :
    (a.await name activity).Every P := by
  unfold Agenda.await
  split
  · refine ⟨fun r member => ?_, every.waiting⟩
    rcases List.mem_append.mp member with before | last
    · exact every.ready r before
    · obtain rfl := List.mem_singleton.mp last
      exact holds
  · split
    all_goals
      refine ⟨every.ready, fun w member => ?_⟩
      rcases List.mem_append.mp member with before | last
      · exact every.waiting w before
      · obtain rfl := List.mem_singleton.mp last
        exact holds

/-- Putting a piece of a call in place adds at most what the call is held in. -/
theorem Every.settleCall (every : a.Every P) {piece : Session × Flow}
    (held : ∀ activity, piece.2 = .held activity → P name activity) :
    (a.settleCall name piece).Every P := by
  obtain ⟨session, answer | activity⟩ := piece
  all_goals
    have kept : ({ a with session } : Agenda).Every P := ⟨every.ready, every.waiting⟩
  · exact ⟨kept.release.ready, kept.release.waiting⟩
  · exact kept.release.await (held activity rfl)

section Row

variable {first : Ready} {rest : List Ready}

/-- Whatever is held is still held once the first of the row has been taken out. -/
theorem Every.others (every : a.Every P) (row : a.ready = first :: rest) (alarms : Alarms)
    (ahead : Nat) : ({ a with ready := rest, alarms, ahead } : Agenda).Every P :=
  ⟨fun r member => every.ready r (row ▸ List.mem_cons_of_mem _ member), every.waiting⟩

/-- The first of the row goes around it. -/
theorem Every.around (every : a.Every P) (row : a.ready = first :: rest) (laps : Nat)
    (alarms : Alarms) (ahead : Nat) :
    ({ a with ready := rest ++ [{ first with laps }], alarms, ahead } : Agenda).Every P := by
  refine ⟨fun r member => ?_, every.waiting⟩
  rcases List.mem_append.mp member with before | last
  · exact (every.others row alarms ahead).ready r before
  · obtain rfl := List.mem_singleton.mp last
    exact every.ready first (row ▸ List.mem_cons_self)

end Row

theorem isHeld_eq_false_iff :
    a.isHeld name = false ↔ a.Every fun other _ => other ≠ name := by
  simp only [isHeld, Bool.or_eq_false_iff, List.any_eq_false, beq_iff_eq]
  exact ⟨fun ⟨ready, waiting⟩ => ⟨ready, waiting⟩, fun every => ⟨every.ready, every.waiting⟩⟩

theorem answers_await (a : Agenda) (name : String) (activity : Activity) :
    (a.await name activity).answers = a.answers := by
  unfold Agenda.await
  split
  · rfl
  · split <;> rfl

theorem session_foldl_ring (a : Agenda) (due : List Alarm) :
    (due.foldl Agenda.ring a).session = a.session := by
  induction due generalizing a with
  | nil => rfl
  | cons alarm due inductionHypothesis => exact inductionHypothesis (a.ring alarm)

theorem answers_foldl_ring (a : Agenda) (due : List Alarm) :
    (due.foldl Agenda.ring a).answers = a.answers := by
  induction due generalizing a with
  | nil => rfl
  | cons alarm due inductionHypothesis => exact inductionHypothesis (a.ring alarm)

theorem session_passTo (a : Agenda) (moment : Int) : (a.passTo moment).session = a.session :=
  session_foldl_ring _ _

theorem answers_passTo (a : Agenda) (moment : Int) : (a.passTo moment).answers = a.answers :=
  answers_foldl_ring _ _

end Agenda

namespace Console

variable {c next : Console}

/-! ## What is shown -/

/-- A console that has shown something. -/
structure Shows (c next : Console) : Prop where
  agenda : next.agenda = c.agenda
  files : next.files = c.files
  mood : next.mood = c.mood

theorem shows_displayEvent (c : Console) (event : Event) : c.Shows (c.displayEvent event) := by
  unfold displayEvent
  split <;> exact ⟨rfl, rfl, rfl⟩

theorem Shows.trans {middle : Console} (first : c.Shows middle) (second : middle.Shows next) :
    c.Shows next :=
  ⟨second.agenda.trans first.agenda, second.files.trans first.files,
    second.mood.trans first.mood⟩

theorem shows_foldl_displayEvent (c : Console) (events : List Event) :
    c.Shows (events.foldl displayEvent c) := by
  induction events generalizing c with
  | nil => exact ⟨rfl, rfl, rfl⟩
  | cons event events inductionHypothesis =>
    exact (c.shows_displayEvent event).trans (inductionHypothesis _)

/-- A console that has met some answers: it has shown what they come to, or it is broken by a roll
that failed. -/
structure Meets (c next : Console) (answers : List (String × Answer)) : Prop where
  agenda : next.agenda = c.agenda
  files : next.files = c.files
  mood : next.mood = c.mood ∨
    ∃ failure, next.mood = .broken failure ∧ (Call.roll.name, .failed failure) ∈ answers

theorem meets_displayAnswer (c : Console) (name : String) (answer : Answer) :
    c.Meets (c.displayAnswer name answer) [(name, answer)] := by
  unfold displayAnswer
  split
  · next isRoll =>
    subst isRoll
    unfold displayRoll
    split
    · split <;> exact ⟨rfl, rfl, .inl rfl⟩
    · next failure =>
      unfold meet
      split
      · split
        · exact ⟨rfl, rfl, .inl rfl⟩
        · exact ⟨rfl, rfl, .inr ⟨_, rfl, List.mem_singleton_self _⟩⟩
      · exact ⟨rfl, rfl, .inr ⟨_, rfl, List.mem_singleton_self _⟩⟩
    · exact ⟨rfl, rfl, .inl rfl⟩
  · split <;> exact ⟨rfl, rfl, .inl rfl⟩

theorem meets_foldl_displayAnswer (c : Console) (answers : List (String × Answer)) :
    c.Meets (answers.foldl (fun c (name, answer) => c.displayAnswer name answer) c) answers := by
  induction answers generalizing c with
  | nil => exact ⟨rfl, rfl, .inl rfl⟩
  | cons entry answers inductionHypothesis =>
    have first := c.meets_displayAnswer entry.1 entry.2
    have later := inductionHypothesis (c.displayAnswer entry.1 entry.2)
    refine ⟨later.agenda.trans first.agenda, later.files.trans first.files, ?_⟩
    rcases later.mood with same | ⟨failure, broken, member⟩
    · rcases first.mood with still | ⟨failure, broken, member⟩
      · exact .inl (same.trans still)
      · refine .inr ⟨failure, same.trans broken, List.mem_cons.mpr (.inl ?_)⟩
        exact List.mem_singleton.mp member
    · exact .inr ⟨failure, broken, List.mem_cons_of_mem _ member⟩

/-- A look at the session takes note of all events and answers. -/
theorem meets_look (c : Console) :
    Meets { c with agenda := { c.agenda with
      session := { c.session with trace := [] }, answers := [] } } c.look c.agenda.answers := by
  have events := shows_foldl_displayEvent { c with agenda := { c.agenda with
    session := { c.session with trace := [] }, answers := [] } } c.session.trace.reverse
  have answers := meets_foldl_displayAnswer (c.session.trace.reverse.foldl displayEvent
    { c with agenda := { c.agenda with
      session := { c.session with trace := [] }, answers := [] } }) c.agenda.answers.reverse
  refine ⟨answers.agenda.trans events.agenda, answers.files.trans events.files, ?_⟩
  rcases answers.mood with same | ⟨failure, broken, member⟩
  · exact .inl (same.trans events.mood)
  · exact .inr ⟨failure, broken, List.mem_reverse.mp member⟩

/-- A look at a session of which everything has been seen shows nothing. -/
theorem look_of_seen (events : c.session.trace = []) (answers : c.agenda.answers = []) :
    c.look = c := by
  obtain ⟨agenda, files, shown, mood⟩ := c
  obtain ⟨session, now, ready, ahead, waiting, alarms, alarmsSet, told, calls⟩ := agenda
  obtain ⟨host, table, archive, engine, held, combats, opened, trace⟩ := session
  obtain rfl : trace = [] := events
  obtain rfl : told = [] := answers
  rfl

/-! ## What is in the background -/

theorem Call.name_inj {call other : Call} (same : call.name = other.name) : call = other := by
  cases call <;> cases other <;> first | rfl | exact absurd same (by decide)

/-- An entry of an agenda is a call of a console, held as such calls are. -/
def IsEntry (name : String) (activity : Activity) : Prop :=
  ∃ call : Call, name = call.name ∧ IsPending call activity

/-- What a console has in the background, where everything that has happened has been seen. -/
structure IsBackground (a : Agenda) : Prop where
  archive : ∃ shelves, a.session.archive.Holds shelves
  audiences : a.session.audiences = [[onlyListener]]
  free : a.session.heldForNobody = false
  events : a.session.trace = []
  answers : a.answers = []
  entries : a.Every IsEntry

/-- Whether a call is lost in the background, so that nothing goes on any longer. -/
def isLost (c : Console) : Bool :=
  c.agenda.ready.any (·.activity.isAdrift) || c.agenda.waiting.any (·.activity.isAdrift)

theorem isLost_eq_false_iff :
    c.isLost = false ↔ c.agenda.Every fun _ activity => activity.isAdrift = false := by
  simp only [isLost, Bool.or_eq_false_iff, List.any_eq_false, Bool.not_eq_true]
  exact ⟨fun ⟨ready, waiting⟩ => ⟨ready, waiting⟩, fun every => ⟨every.ready, every.waiting⟩⟩

/-- A console in which something has gone on that some calls are active in. -/
structure GoesOn (active : String → Prop) (c next : Console) : Prop where
  background : IsBackground next.agenda
  upholds : c.session.Upholds next.session
  files : next.files = c.files
  held : ∀ name, next.agenda.isHeld name = true → active name
  /-- Only a roll that is waited for ends the console, if it fails. -/
  mood : next.mood = c.mood ∨ active Call.roll.name ∧
    ∃ mishap, next.mood = .broken (.mishap mishap) ∧ Combat.IsRollMishap mishap

/-- A single piece of what goes on, in which a call is lost only in certain sessions. -/
structure StepsOn (active : String → Prop) (Lost : Session → Prop) (c next : Console) : Prop
    extends GoesOn active c next where
  lost : c.isLost = false → next.isLost = true → Lost next.session

theorem GoesOn.trans {active : String → Prop} {middle : Console} (first : c.GoesOn active middle)
    (second : middle.GoesOn (middle.agenda.isHeld · = true) next) : c.GoesOn active next where
  background := second.background
  upholds := first.upholds.trans second.upholds
  files := second.files.trans first.files
  held name isHeld := first.held name (second.held name isHeld)
  mood := by
    rcases second.mood with same | ⟨isHeld, broken⟩
    · rw [same]
      exact first.mood
    · exact .inr ⟨first.held _ isHeld, broken⟩

/-- A look at a changed agenda lets the console go on, if the agenda has changed as a background
does. -/
theorem stepsOn_look {active : String → Prop} {Lost : Session → Prop} {a : Agenda}
    (background : IsBackground c.agenda)
    (upholds : c.session.Upholds a.session) (entries : a.Every IsEntry)
    (held : a.Every fun name _ => active name)
    (fails : ∀ failure, (Call.roll.name, .failed failure) ∈ a.answers → active Call.roll.name ∧
      ∃ mishap, failure = .mishap mishap ∧ Combat.IsRollMishap mishap)
    (lost : c.isLost = false → a.Every fun _ activity =>
      activity.isAdrift = true → Lost { a.session with trace := [] }) :
    c.StepsOn active Lost { c with agenda := a }.look := by
  have meets := meets_look { c with agenda := a }
  generalize ({ c with agenda := a } : Console).look = next at meets
  have agenda : next.agenda = { a with
    session := { a.session with trace := [] }, answers := [] } := meets.agenda
  have seen : next.session = { a.session with trace := [] } := congrArg Agenda.session agenda
  refine ⟨⟨?_, ?_, meets.files, fun name isHeld => ?_, ?_⟩, fun going isLost => ?_⟩
  · obtain ⟨shelves, holds⟩ := background.archive
    rw [agenda]
    exact ⟨⟨shelves, holds.congr upholds.rows⟩, upholds.audiences.trans background.audiences,
      upholds.held.trans background.free, rfl, rfl, ⟨entries.ready, entries.waiting⟩⟩
  · rw [seen]
    exact ⟨upholds.rows, upholds.audiences, upholds.held⟩
  · rw [agenda, Agenda.isHeld, Bool.or_eq_true, List.any_eq_true, List.any_eq_true] at isHeld
    rcases isHeld with ⟨r, member, same⟩ | ⟨w, member, same⟩
    · obtain rfl := beq_iff_eq.mp same
      exact held.ready r member
    · obtain rfl := beq_iff_eq.mp same
      exact held.waiting w member
  · rcases meets.mood with same | ⟨failure, broken, member⟩
    · exact .inl same
    · obtain ⟨isActive, mishap, rfl, isRollMishap⟩ := fails failure member
      exact .inr ⟨isActive, mishap, broken, isRollMishap⟩
  · rw [Console.isLost, agenda, Bool.or_eq_true, List.any_eq_true, List.any_eq_true] at isLost
    rw [seen]
    rcases isLost with ⟨r, member, adrift⟩ | ⟨w, member, adrift⟩
    · exact (lost going).ready r member adrift
    · exact (lost going).waiting w member adrift

/-- What is held is held under a name that is active. -/
theorem every_isHeld (a : Agenda) : a.Every fun name _ => a.isHeld name = true := by
  constructor
  · intro r member
    rw [Agenda.isHeld, Bool.or_eq_true]
    exact .inl (List.any_eq_true.mpr ⟨r, member, beq_self_eq_true _⟩)
  · intro w member
    rw [Agenda.isHeld, Bool.or_eq_true]
    exact .inr (List.any_eq_true.mpr ⟨w, member, beq_self_eq_true _⟩)

/-- An agenda that has been changed without anything being taken up. -/
theorem stepsOn_of_same {Lost : Session → Prop} {a : Agenda} (background : IsBackground c.agenda)
    (upholds : c.session.Upholds a.session) (answers : a.answers = c.agenda.answers)
    (every : ∀ P, c.agenda.Every P → a.Every P) :
    c.StepsOn (c.agenda.isHeld · = true) Lost { c with agenda := a }.look := by
  refine stepsOn_look background upholds (every _ background.entries)
    (every _ (every_isHeld c.agenda)) (fun failure member => ?_) fun going => ?_
  · rw [answers, background.answers] at member
    cases member
  · exact (every _ (isLost_eq_false_iff.mp going)).imp fun _ _ still adrift => by
      rw [still] at adrift
      cases adrift

/-- A piece of a call is put in place, which some calls are active in. -/
theorem stepsOn_settleCall {active : String → Prop} {Lost Finally : Session → Prop} {a : Agenda}
    {call : Call} {piece : Session × Flow} (background : IsBackground c.agenda)
    (answers : a.answers = []) (entries : a.Every IsEntry)
    (held : a.Every fun name _ => active name)
    (going : c.isLost = false → a.Every fun _ activity => activity.isAdrift = false)
    (isActive : active call.name) (comes : Comes Lost call piece)
    (lost : c.isLost = false → ∀ s, Lost s → Finally { s with trace := [] })
    (upholds : c.session.Upholds piece.1) :
    c.StepsOn active Finally { c with agenda := a.settleCall call.name piece }.look := by
  have same : (a.settleCall call.name piece).session = piece.1 :=
    a.session_settleCall call.name piece
  refine stepsOn_look background (same ▸ upholds) (entries.settleCall fun activity isHeld => ?_)
    (held.settleCall fun _ _ => isActive) (fun failure member => ?_) fun isGoing => ?_
  · cases comes with
    | ended => cases isHeld
    | held s pending =>
      cases isHeld
      exact ⟨call, rfl, pending⟩
  · cases comes with
    | ended s fails =>
      rcases List.mem_cons.mp member with this | before
      · obtain ⟨name, answer⟩ := Prod.mk.inj this
        obtain rfl := Call.name_inj name
        exact ⟨isActive, fails rfl failure answer.symm⟩
      · rw [show _ = [] from answers] at before
        cases before
    | held s pending =>
      rw [Agenda.settleCall, Agenda.answers_await] at member
      rw [show _ = [] from answers] at member
      cases member
  · rw [same]
    refine Agenda.Every.settleCall ((going isGoing).imp fun _ _ still adrift => ?_)
      fun activity isHeld adrift => ?_
    · rw [still] at adrift
      cases adrift
    · cases comes with
      | ended => cases isHeld
      | held s pending isLost =>
        cases isHeld
        exact lost isGoing _ (isLost adrift)

/-! ## What goes on -/

/-- Something goes on in the background: what is ready is taken up, or time passes. -/
inductive Idles (c : Console) : Console → Prop
  | step {agenda : Agenda} (taken : c.agenda.step? = some agenda) :
      Idles c { c with agenda }.look
  | passTo (moment : Int) : Idles c (c.act (·.passTo moment))
  | setClock (moment : Int) : Idles c (c.act (·.setClock moment))

/-- What goes on in the background concerns only calls that are held there. -/
theorem Idles.stepsOn (background : IsBackground c.agenda) (idles : c.Idles next) :
    c.StepsOn (c.agenda.isHeld · = true) IsDeserted next := by
  cases idles with
  | passTo moment =>
    refine stepsOn_of_same background ?_ (c.agenda.answers_passTo moment) fun P every =>
      every.passTo moment
    rw [Agenda.session_passTo]
    exact .refl _
  | setClock moment =>
    exact stepsOn_of_same background (.refl _) rfl fun P every => ⟨every.ready, every.waiting⟩
  | @step agenda taken =>
    obtain ⟨first, rest, alarms, ahead, row, cases⟩ := Agenda.step?_cases taken
    have isFirst : first ∈ c.agenda.ready := row ▸ List.mem_cons_self
    rcases cases with ⟨laps, _, rfl⟩ | ⟨_, rested, rfl⟩
    · exact stepsOn_of_same background (.refl _) rfl fun P every =>
        every.around row laps alarms ahead
    · obtain ⟨call, name, pending⟩ := background.entries.ready first isFirst
      rw [name]
      refine stepsOn_settleCall background background.answers
        (background.entries.others row alarms ahead)
        ((every_isHeld c.agenda).others row alarms ahead)
        (fun going => (isLost_eq_false_iff.mp going).others row alarms ahead) ?_
        (comes_takeUp background.audiences pending rested) (fun going s isLost => ?_)
        (upholds_takeUp pending rested)
      · exact name ▸ (every_isHeld c.agenda).ready first isFirst
      · exact isLost ((isLost_eq_false_iff.mp going).ready first isFirst)

/-- Whatever goes on in the background, and for however long, concerns only calls that were held
there. -/
theorem goesOn_of_chain (background : IsBackground c.agenda)
    (chain : Relation.ReflTransGen Idles c next) :
    c.GoesOn (c.agenda.isHeld · = true) next := by
  induction chain with
  | refl => exact ⟨background, .refl _, rfl, fun _ isHeld => isHeld, .inl rfl⟩
  | tail _ idles inductionHypothesis =>
    exact inductionHypothesis.trans (idles.stepsOn inductionHypothesis.background).toGoesOn

/-- Letting time pass is what goes on in the background. -/
theorem chain_pass (limit : Option Int) (goesOn : Console → Bool) (fuel : Nat) (c : Console) :
    Relation.ReflTransGen Idles c (pass limit goesOn fuel c) := by
  induction fuel generalizing c with
  | zero => exact .refl
  | succ fuel inductionHypothesis =>
    unfold pass
    split
    · exact .refl
    · split
      · next taken => exact .head (.step taken) (inductionHypothesis _)
      · split
        · exact .refl
        · next moment _ =>
          split
          · exact .head (.passTo moment) (inductionHypothesis _)
          · exact .refl

theorem chain_await (c : Console) (duration : Option Int) :
    Relation.ReflTransGen Idles c (c.await duration) := by
  have passed := chain_pass (duration.map (c.agenda.now + ·)) (fun _ => true) c.patience c
  cases duration with
  | none => exact passed
  | some duration => exact passed.tail (.setClock (c.agenda.now + duration))

/-! ## What commands set going -/

/-- A change of the session that upholds it. -/
theorem stepsOn_act {change : Session → Session} (background : IsBackground c.agenda)
    (upholds : c.session.Upholds (change c.session)) :
    c.StepsOn (c.agenda.isHeld · = true) (fun _ => False) (c.act (·.act change)) :=
  stepsOn_of_same background upholds rfl fun _ every =>
    Agenda.Every.release ⟨every.ready, every.waiting⟩

/-- A call is made. -/
theorem stepsOn_launch {Lost Finally : Session → Prop} {call : Call}
    {begin : Session → Session × Flow} (background : IsBackground c.agenda)
    (comes : Comes Lost call (begin c.session))
    (lost : ∀ s, Lost s → Finally { s with trace := [] })
    (upholds : c.session.Upholds (begin c.session).1) :
    c.StepsOn (fun name => c.agenda.isHeld name = true ∨ name = call.name) Finally
      (c.launch call begin) := by
  have kept (P : String → Activity → Prop) (every : c.agenda.Every P) :
      ({ c.agenda.tidy with calls := c.agenda.calls ++ [call.name] } : Agenda).Every P :=
    ⟨every.ready, every.waiting⟩
  exact stepsOn_settleCall background background.answers (kept _ background.entries)
    (kept _ ((every_isHeld c.agenda).imp fun _ _ isHeld => .inl isHeld))
    (fun going => kept _ (isLost_eq_false_iff.mp going)) (.inr rfl) comes (fun _ => lost) upholds

end Console
end TurnScript
