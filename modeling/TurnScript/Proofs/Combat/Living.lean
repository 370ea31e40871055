import TurnScript.Proofs.Combat.Rounds

/-!
# Turns of the living

An errand for the next turn passes over the dead: it looks whether a combatant is alive at the
moment in which it announces the turn, also after a rest and whatever others have done meanwhile.
The errand that opens a combat does not look. It announces the first in initiative order, dead or
alive.
-/

namespace TurnScript

namespace Combat

/-- The turn that a piece of an errand announces, if it does. -/
def Step.turn? (step : Step Stage) : Option Announcement :=
  step.result.announcement? step.combat

/-- Whether a piece of an errand announces the turn of someone who is dead. -/
def Step.callsDead (step : Step Stage) : Bool :=
  step.turn?.any fun turn => !(step.table.token turn.ref).alive

/-! ### Looking before announcing -/

@[simp]
theorem combat_announce (c : Combat) (table : Table) : (c.announce table).combat = c := by
  unfold announce
  split <;> rfl

@[simp]
theorem token_announce (c : Combat) (table : Table) (ref : TokenRef) :
    (c.announce table).table.token ref = table.token ref := by
  unfold announce
  split <;> rfl

/-- An announcement is one of the combatant at the current place. -/
theorem of_announce {c : Combat} {table : Table} {turn : Announcement}
    (announced : (c.announce table).turn? = some turn) :
    turn.round = c.round ∧ turn.place = c.turn ∧ c.combatants[c.turn]? = some turn.ref := by
  unfold announce at announced
  split at announced
  · cases announced
  · next ref isCurrent =>
    obtain rfl := Option.some.inj announced
    refine ⟨rfl, rfl, ?_⟩
    unfold current at isCurrent
    split at isCurrent
    · exact isCurrent
    · cases isCurrent

/-- Nobody dead is called where the current combatant is alive. -/
theorem announce_spares_dead {c : Combat} {table : Table}
    (alive : c.aliveAt table c.turn = true) : (c.announce table).callsDead = false := by
  cases announced : (c.announce table).turn? with
  | none => rw [Step.callsDead, announced, Option.any_none]
  | some turn =>
    obtain ⟨_, _, listed⟩ := of_announce announced
    simpa [Step.callsDead, announced, aliveAt, listed] using alive

/-- A place that is found from another one on is one of someone alive. -/
theorem aliveAt_of_livingFrom? {c : Combat} {table : Table} {start place : Nat}
    (found : c.livingFrom? table start = some place) : c.aliveAt table place = true := by
  obtain ⟨offset, first, rfl⟩ := Option.map_eq_some_iff.mp found
  obtain ⟨within, alive, _⟩ := List.findIdx?_eq_some_iff_getElem.mp first
  rw [List.getElem_drop] at alive
  rw [List.length_drop] at within
  simpa [aliveAt, List.getElem?_eq_getElem (by omega : start + offset < c.combatants.length)]
    using alive

/-- An errand for the next turn that looks at a place calls nobody dead, if it calls nobody dead
where it goes on from there. -/
theorem arrive_spares_dead {rounds : Nat} (batch : Step Batch)
    (later : ∀ c table, (seek rounds c table).callsDead = false) :
    (arrive rounds batch).callsDead = false := by
  obtain ⟨c, table, _ | _ | _⟩ := batch
  · rw [arrive]
    split
    · next alive => exact announce_spares_dead alive
    · exact later c table
  · rfl
  · rfl

/-- An errand for the next turn calls nobody dead, however many rounds it goes through. -/
theorem seek_spares_dead (rounds : Nat) (c : Combat) (table : Table) :
    (seek rounds c table).callsDead = false := by
  induction rounds generalizing c table with
  | zero => rfl
  | succ rounds inductionHypothesis =>
    cases found : c.livingFrom? table (c.turn + 1) with
    | some place =>
      rw [seek_of_living rounds found]
      exact announce_spares_dead (c := { c with turn := place }) (aliveAt_of_livingFrom? found)
    | none =>
      -- The first place of a new round is looked at after the batch, and then the search goes on.
      rw [seek_of_none rounds found]
      exact arrive_spares_dead _ inductionHypothesis

/-- Only an errand that starts a combat may call someone dead after its batch. -/
theorem afterBatch_spares_dead {errand : Errand} (batch : Step Batch) (other : errand ≠ .start) :
    (afterBatch errand batch).callsDead = false := by
  cases errand with
  | start => exact absurd rfl other
  | next =>
    rw [afterBatch_next]
    exact arrive_spares_dead batch (seek_spares_dead enoughRounds)
  | roll | join => obtain ⟨c, table, _ | _ | _⟩ := batch <;> rfl

/-! ### Opening -/

/-- Initiatives can be put in order. -/
theorem initiativeBefore_trans (a b c : Option Int) (early : initiativeBefore a b = true)
    (late : initiativeBefore b c = true) : initiativeBefore a c = true := by
  cases a <;> cases b <;> cases c <;> simp_all [initiativeBefore]
  omega

theorem initiativeBefore_total (a b : Option Int) :
    (initiativeBefore a b || initiativeBefore b a) = true := by
  cases a <;> cases b <;> simp [initiativeBefore]
  omega

theorem pairwise_sort (c : Combat) (table : Table) :
    (c.sort table).combatants.Pairwise fun a b =>
      initiativeBefore (table.token a).initiative (table.token b).initiative = true := by
  apply List.pairwise_mergeSort
  · exact fun _ _ _ => initiativeBefore_trans _ _ _
  · exact fun _ _ => initiativeBefore_total _ _

/-- Nobody in a sorted order goes before its first. -/
theorem initiativeBefore_of_sort {c : Combat} {table : Table} {first : TokenRef}
    (leads : (c.sort table).combatants.head? = some first) :
    ∀ ref ∈ (c.sort table).combatants, initiativeBefore (table.token first).initiative
      (table.token ref).initiative = true := by
  have sorted := pairwise_sort c table
  obtain ⟨others, order⟩ := List.head?_eq_some_iff.mp leads
  rw [order] at sorted ⊢
  have itself := initiativeBefore_total (table.token first).initiative
    (table.token first).initiative
  rw [Bool.or_self] at itself
  exact List.forall_mem_cons.mpr ⟨itself, (List.pairwise_cons.mp sorted).1⟩

/-- A combat is opened with the order sorted, and the first turn is announced. -/
theorem opening_eq (c : Combat) (table : Table) :
    ∃ told : Table, told.token = table.token ∧ c.opening table =
      { c.sort table with round := 1, turn := 0, started := true }.announce told :=
  ⟨table.remark _ _ _, rfl, rfl⟩

/-- A turn is the first one of a combat: that of the first combatant, before whom nobody goes in
initiative. -/
structure IsFirstTurn (c : Combat) (table : Table) (turn : Announcement) : Prop where
  round : turn.round = 1
  place : turn.place = 0
  leads : c.combatants.head? = some turn.ref
  before : ∀ ref ∈ c.combatants, initiativeBefore (table.token turn.ref).initiative
    (table.token ref).initiative = true

/-- An errand that starts a combat calls the first in initiative order. -/
theorem isFirstTurn_of_start {batch : Step Batch} {turn : Announcement}
    (announced : (afterBatch .start batch).turn? = some turn) :
    IsFirstTurn (afterBatch .start batch).combat (afterBatch .start batch).table turn := by
  obtain ⟨c, table, _ | _ | _⟩ := batch
  · obtain ⟨told, same, opened⟩ := opening_eq c table
    rw [afterBatch, opened] at announced ⊢
    obtain ⟨round, place, listed⟩ := of_announce announced
    have leads : (c.sort table).combatants.head? = some turn.ref := by
      rw [List.head?_eq_getElem?]
      exact listed
    refine ⟨round, place, by rwa [combat_announce], fun ref member => ?_⟩
    rw [combat_announce] at member
    rw [token_announce, token_announce, same]
    exact initiativeBefore_of_sort leads ref member
  · cases announced
  · cases announced

end Combat

namespace Melee

/-- The turns that are announced when something happens. -/
def announced (m : Melee) (incident : Incident) : List Announcement :=
  (m.effect incident).turns.drop m.turns.length

/-- Whether every turn that is announced when something happens is one of a living token. -/
def callsLiving (m : Melee) (incident : Incident) : Bool :=
  (m.announced incident).all fun turn => ((m.effect incident).table.token turn.ref).alive

/-- The first combatant of a combat that is opened, if what happens opens one. -/
def opener? (m : Melee) (incident : Incident) : Option TokenRef :=
  match m.piece? incident with
  | some (.start, ⟨c, _, .announcing _⟩) => c.combatants.head?
  | _ => none

/-- Whether a combat is opened whose first combatant is dead. -/
def opensOnDead (m : Melee) (incident : Incident) : Bool :=
  (m.opener? incident).any fun ref => !((m.effect incident).table.token ref).alive

/-- What happens announces the turn of the piece that is done then. -/
theorem announced_of_piece {m : Melee} {incident : Incident} {errand : Errand}
    {step : Combat.Step Combat.Stage} (done : m.piece? incident = some (errand, step)) :
    m.announced incident = step.turn?.toList ∧ (m.effect incident).table = step.table ∧
      (m.effect incident).combat = step.combat := by
  simp [announced, effect, done, settle, Combat.Step.turn?]

/-- Where no piece of an errand is done, no turn is announced. -/
theorem announced_of_none {m : Melee} {incident : Incident} (idle : m.piece? incident = none) :
    m.announced incident = [] := by
  cases incident <;> simp [announced, effect, idle]

/-- A piece of an errand that starts a combat comes after a batch, and no other piece calls someone
dead. -/
theorem piece?_cases {m : Melee} {incident : Incident} {errand : Errand}
    {step : Combat.Step Combat.Stage} (done : m.piece? incident = some (errand, step)) :
    (errand = .start ∧ ∃ batch, step = Combat.afterBatch .start batch) ∨
      (errand ≠ .start ∧ step.callsDead = false) := by
  cases incident with
  | roll =>
    obtain ⟨rfl, rfl⟩ := Prod.mk.inj (Option.some.inj done)
    exact .inr ⟨by decide, Combat.afterBatch_spares_dead _ (by decide)⟩
  | start =>
    obtain ⟨rfl, rfl⟩ := Prod.mk.inj (Option.some.inj done)
    exact .inl ⟨rfl, _, rfl⟩
  | next =>
    have done := Option.some.inj done
    unfold Combat.next at done
    split at done
    · obtain ⟨rfl, rfl⟩ := Prod.mk.inj done
      exact .inl ⟨rfl, _, rfl⟩
    split at done
    · obtain ⟨rfl, rfl⟩ := Prod.mk.inj done
      exact .inr ⟨by decide, rfl⟩
    · obtain ⟨rfl, rfl⟩ := Prod.mk.inj done
      exact .inr ⟨by decide, Combat.seek_spares_dead _ _ _⟩
  | join ref =>
    obtain ⟨rfl, rfl⟩ := Prod.mk.inj (Option.some.inj done)
    refine .inr ⟨by decide, ?_⟩
    unfold Combat.join
    dsimp only
    split
    · exact Combat.afterBatch_spares_dead _ (by decide)
    · rfl
  | rested place =>
    obtain ⟨r, _, same⟩ := Option.map_eq_some_iff.mp done
    obtain ⟨rfl, rfl⟩ := Prod.mk.inj same
    -- Which errand has rested decides, not what has been done meanwhile.
    by_cases starts : r.errand = .start
    · exact .inl ⟨starts, _, by rw [Combat.rested, starts]⟩
    · exact .inr ⟨starts, Combat.afterBatch_spares_dead _ starts⟩
  | disturbed table => cases done

/-- Only a piece of an errand that starts a combat opens one. -/
theorem opener?_of_other {m : Melee} {incident : Incident} {errand : Errand}
    {step : Combat.Step Combat.Stage} (done : m.piece? incident = some (errand, step))
    (other : errand ≠ .start) : m.opener? incident = none := by
  rw [opener?, done]
  cases errand with
  | start => exact absurd rfl other
  | roll | next | join => rfl

/-- Opening a combat calls its first combatant. -/
theorem opener?_of_start {m : Melee} {incident : Incident} {batch : Combat.Step Combat.Batch}
    (done : m.piece? incident = some (.start, Combat.afterBatch .start batch)) :
    m.opener? incident = (Combat.afterBatch .start batch).turn?.map (·.ref) := by
  rw [opener?, done]
  have first : ∀ turn, (Combat.afterBatch .start batch).turn? = some turn →
      (Combat.afterBatch .start batch).combat.combatants.head? = some turn.ref :=
    fun turn called => (Combat.isFirstTurn_of_start called).leads
  generalize Combat.afterBatch .start batch = step at first ⊢
  obtain ⟨c, table, stage⟩ := step
  cases stage with
  | announcing ref => exact first _ rfl
  | resting _ _ | ended _ | adrift => rfl

/-- What happens calls the dead exactly if it opens a combat whose first combatant is dead. -/
theorem callsLiving_eq (m : Melee) (incident : Incident) :
    m.callsLiving incident = !m.opensOnDead incident := by
  cases done : m.piece? incident with
  | none => simp [callsLiving, announced_of_none done, opensOnDead, opener?, done]
  | some piece =>
    obtain ⟨errand, step⟩ := piece
    obtain ⟨turns, table, _⟩ := announced_of_piece done
    have called : m.callsLiving incident = !step.callsDead := by
      rw [callsLiving, turns, table, Combat.Step.callsDead]
      cases step.turn? <;> simp
    rcases piece?_cases done with ⟨rfl, batch, rfl⟩ | ⟨other, spared⟩
    · rw [called, opensOnDead, opener?_of_start done, table, Option.any_map]
      rfl
    · rw [called, spared, opensOnDead, opener?_of_other done other, Option.any_none]

/-- A turn that is announced is one of someone alive, or the first turn of a combat. -/
theorem of_mem_announced {m : Melee} {incident : Incident} {turn : Announcement}
    (called : turn ∈ m.announced incident) :
    let later := m.effect incident
    (later.table.token turn.ref).alive = true ∨
      (m.opensOnDead incident = true ∧ later.combat.IsFirstTurn later.table turn) := by
  intro later
  by_cases alive : (later.table.token turn.ref).alive = true
  · exact .inl alive
  right
  have callsDead : m.opensOnDead incident = true := by
    have dead : m.callsLiving incident = false := by
      rw [callsLiving, List.all_eq_false]
      exact ⟨turn, called, alive⟩
    rwa [callsLiving_eq, Bool.not_eq_false'] at dead
  refine ⟨callsDead, ?_⟩
  cases done : m.piece? incident with
  | none => simp [announced_of_none done] at called
  | some piece =>
    obtain ⟨errand, step⟩ := piece
    obtain ⟨turns, table, combat⟩ := announced_of_piece done
    rw [turns, Option.mem_toList] at called
    simp only [later, table, combat]
    rcases piece?_cases done with ⟨rfl, batch, rfl⟩ | ⟨other, _⟩
    · exact Combat.isFirstTurn_of_start called
    · rw [opensOnDead, opener?_of_other done other] at callsDead
      cases callsDead

/-- In every history, every turn that is announced is one of a token that is alive at that moment,
exactly as long as no combat is opened whose first combatant is dead. In every state that a history
reaches, that is the only way to call someone dead: it is the first turn of round 1, that of a
combatant before whom nobody goes in initiative. -/
theorem living_take_turns (m : Melee) (history : List Incident) :
    always callsLiving m history = always (fun m incident => !m.opensOnDead incident) m history ∧
      ∀ incident, ∀ turn ∈ (m.after history).announced incident,
        let later := (m.after history).effect incident
        (later.table.token turn.ref).alive = true ∨
          ((m.after history).opensOnDead incident = true ∧
            later.combat.IsFirstTurn later.table turn) := by
  constructor
  · exact congrArg (always · m history) (funext fun m => funext fun incident =>
      callsLiving_eq m incident)
  · exact fun incident turn called => of_mem_announced called

/-- A combat that has not started, whose first combatant is dead. -/
def ambush : Melee where
  combat := { combatants := [0, 1] }
  table.board.roster := [{ id := "hero", name := "hero", hp := 0, initiative := some 20 },
    { id := "orc", name := "orc", initiative := some 10 }]

/-- The call for the next turn opens the combat with the turn of the dead, though another combatant
is alive. -/
theorem dead_has_first_turn :
    ambush.announced .next = [⟨1, 0, 0⟩] ∧ ambush.callsLiving .next = false ∧
      ((ambush.effect .next).table.token 0).alive = false ∧
      ((ambush.effect .next).table.token 1).alive = true := by
  have opened : ambush.effect .next = ambush.settle [] .start
      (Combat.announce { ambush.combat with round := 1, turn := 0, started := true }
        (ambush.table.remark "combat" .info "Combat started: hero (20), orc (10)")) := by
    change ambush.settle [] .start (Combat.opening ambush.combat ambush.table) = _
    rw [Combat.opening, Combat.sort_of_pairwise (by decide +kernel)]
    rfl
  rw [announced, callsLiving, announced, opened]
  decide +kernel

end Melee
end TurnScript
