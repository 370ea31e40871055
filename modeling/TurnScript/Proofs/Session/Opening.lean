import TurnScript.Proofs.Combat.Order
import TurnScript.Proofs.Combat.Rolls
import TurnScript.Proofs.Session.Advancing

/-!
# Opening a combat

A call that starts a combat rolls for whoever waits for a roll, puts the combatants in initiative
order and tells every listener of the turn of the first, one after the other. It is held between two
rolls and while a listener has a run; meanwhile others may do what they like, as long as they leave
the combat and its combatants alone.
-/

namespace TurnScript.Session

open Combat (Roll)

variable {s now later before : Session} {ref : CombatRef} {rolls more : List Roll}
  {ahead : List TokenRef}

/-! ## Courses of a call -/

/-- The rolls that are made when an activity is taken up, those of the batch that it rests in. -/
def Makes (s : Session) (rolls : List Roll) : Activity → Prop
  | .errand ref _ (.resting ahead rolled) =>
    Combat.Goes s.table ahead rolled rolls
      (Combat.rollAhead (s.combat ref).rollDelay s.table ahead rolled)
  | _ => rolls = []

/-- How a call that starts a combat can come along when nobody else touches the combat: the rolls
that it has made, what it has come to, and the turns that it has told listeners of. -/
inductive Opening (s : Session) (ref : CombatRef) :
    List Roll → Session × Flow → List (Nat × String) → Prop
  | called {rolls : List Roll}
      (goes : Combat.Goes s.table ((s.combat ref).candidates s.table) 0 rolls
        (Combat.rollAhead (s.combat ref).rollDelay s.table ((s.combat ref).candidates s.table) 0)) :
      Opening s ref rolls (s.startCombat ref) (turnsSince s (s.startCombat ref).1)
  | takenUp {rolls more : List Roll} {before : Session} {activity : Activity}
      {told : List (Nat × String)} (earlier : Opening s ref rolls (before, .held activity) told)
      (later : Session) (rested : Bool) (undisturbed : before.Undisturbed later ref)
      (makes : later.Makes more activity) :
      Opening s ref (rolls ++ more) (later.takeUpActivity rested activity)
        (turnsSince later (later.takeUpActivity rested activity).1 ++ told)

theorem exists_makes (s : Session) (activity : Activity) : ∃ rolls, s.Makes rolls activity := by
  cases activity with
  | use | run => exact ⟨[], rfl⟩
  | errand ref errand hold =>
    cases hold with
    | resting ahead rolled => exact Combat.exists_goes _ _ _ _
    | listening | adrift => exact ⟨[], rfl⟩

/-- A combat has been opened: the rolls for it have been made, its order has been set, and its first
turn is about to be told of. -/
structure Opened (s opened : Session) (ref : CombatRef) (rolls : List Roll) (token : TokenRef) :
    Prop where
  known : ref < opened.combats.length
  /-- Whoever waited for a roll has been rolled for, in the order of the list. -/
  rolled : rolls.map Roll.ref = ((s.combat ref).candidates s.table).eraseDups
  given : ∀ roll ∈ rolls, ∃ score dice, (s.token roll.ref).score? .dexterity = some score ∧
    roll.found.dice.Throws 20 [roll.natural] dice ∧ opened.token roll.ref =
      { s.token roll.ref with initiative := some (roll.natural + Int.fdiv (score - 10) 2) }
  kept : ∀ other ∈ (s.combat ref).combatants, other ∉ (s.combat ref).candidates s.table →
    opened.token other = s.token other
  order : ∃ order, Combat.IsOrdered opened.table (s.combat ref).combatants order ∧
    order.head? = some token ∧ opened.combat ref =
      { s.combat ref with combatants := order, round := 1, turn := 0, started := true }

/-- A call rests between the rolls for a combat that it starts. -/
structure Gathers (s later : Session) (ref : CombatRef) (rolls : List Roll)
    (ahead : List TokenRef) : Prop where
  known : ref < later.combats.length
  combat : later.combat ref = { s.combat ref with rolling := true }
  served : (s.combat ref).Served s.table rolls ahead later.table

/-- How far a call that starts a combat has come, with the rolls that it has made and the turns that
it has told of. -/
inductive Opens (s : Session) (ref : CombatRef) (rolls : List Roll) :
    Session × ErrandStanding → List (Nat × String) → Prop
  | resting {later : Session} {ahead : List TokenRef} (rolled : Nat)
      (gathers : Gathers s later ref rolls ahead) :
      Opens s ref rolls (later, .held (.resting ahead rolled)) []
  /-- A roll has failed. -/
  | raised {later : Session} (mishap : Mishap) :
      Opens s ref rolls (later, .over (.error (.mishap mishap))) []
  /-- The listeners are told of the first turn, or all have been, or one has failed. -/
  | telling {opened later : Session} {token : TokenRef} {standing : ErrandStanding}
      {told : List (Nat × String)} (opens : Opened s opened ref rolls token)
      (known : ref < later.combats.length) (same : later.combat ref = opened.combat ref)
      (named : (later.token token).id = (s.token token).id)
      (tells : Tells (s.combat ref).listeners token (1, (s.token token).id) standing told) :
      Opens s ref rolls (later, standing) told

/-! ## Pieces of a call -/

/-- How a call goes on once its batch has come to something. -/
inductive Leads (s now : Session) (ref : CombatRef) (rolls : List Roll) (ahead : List TokenRef) :
    Session × ErrandStanding → Prop
  | telling {opened : Session} {token : TokenRef} (opens : Opened s opened ref rolls token)
      (silent : opened.turnsTold = now.turnsTold) :
      Leads s now ref rolls ahead (tellListeners ref token opened (s.combat ref).listeners)
  | resting {next : Session} {left : List TokenRef} (rolled : Nat)
      (gathers : Gathers s next ref rolls left) (fewer : left.length < ahead.length)
      (silent : next.turnsTold = now.turnsTold) :
      Leads s now ref rolls ahead (next, .held (.resting left rolled))
  | raised {next : Session} (mishap : Mishap) (silent : next.turnsTold = now.turnsTold) :
      Leads s now ref rolls ahead (next, .over (.error (.mishap mishap)))

theorem scoreModifier_eq_fdiv (score : Int) : scoreModifier score = Int.fdiv (score - 10) 2 := by
  rw [scoreModifier, Int.fdiv_eq_ediv_of_nonneg _ (by decide)]

/-- Once the batch is finished, the combat is opened. -/
theorem leads_of_served {table : Table} (inhabited : (s.combat ref).combatants ≠ [])
    (known : ref < now.combats.length)
    (served : (s.combat ref).Served s.table rolls [] table) :
    Leads s now ref rolls ahead (now.attend ref ((s.combat ref).opening table)) := by
  have ordered := Combat.isOrdered_sort (s.combat ref) table
  have someone : ((s.combat ref).sort table).combatants ≠ [] := by
    intro nobody
    have perm := ordered.perm
    rw [nobody] at perm
    exact inhabited perm.nil_eq.symm
  obtain ⟨token, leads⟩ := Option.isSome_iff_exists.mp (List.isSome_head?.mpr someone)
  obtain ⟨told, same, opening⟩ := Combat.opening_eq (s.combat ref) table
  have listed : ((s.combat ref).sort table).combatants[0]? = some token := by
    rwa [← List.head?_eq_getElem?]
  obtain ⟨heard, sameAgain, attended⟩ := now.attend_announce ref
    (c := { (s.combat ref).sort table with round := 1, turn := 0, started := true }) rfl listed told
  rw [opening, attended]
  refine .telling ?_ (now.turnsTold_withCombat ref _ heard)
  have seen : heard.token = table.token := sameAgain.trans same
  refine ⟨known_withCombat known _ _, ?_, fun roll member => ?_, fun other listed apart => ?_,
    ((s.combat ref).sort table).combatants, ?_, leads, combat_withCombat known _ _⟩
  · simpa [Combat.lacking] using served.split
  · obtain ⟨score, scored, written⟩ := served.given roll member
    obtain ⟨dice, shown⟩ := served.shown roll member
    refine ⟨score, dice, scored, shown, ?_⟩
    rw [← scoreModifier_eq_fdiv]
    exact (congrFun seen roll.ref).trans written
  · refine (congrFun seen other).trans (served.kept other listed fun rolled => ?_)
    exact apart (served.candidate rolled)
  · exact ordered.of_same seen

theorem leads_of_goes {rolled : Nat} (inhabited : (s.combat ref).combatants ≠ [])
    (known : ref < now.combats.length) (still : (s.combat ref).rolling = false)
    (served : (s.combat ref).Served s.table rolls ahead now.table)
    (goes : Combat.Goes now.table ahead rolled more
      (Combat.rollAhead (s.combat ref).rollDelay now.table ahead rolled)) :
    Leads s now ref (rolls ++ more) ahead (now.attend ref (Combat.afterBatch .start
      (({ s.combat ref with rolling := true } : Combat).continueBatch now.table ahead rolled))) := by
  rw [Combat.continueBatch]
  cases went : Combat.rollAhead (s.combat ref).rollDelay now.table ahead rolled with
  | mk result after =>
    rw [went] at goes
    cases result with
    | failed mishap => exact .raised mishap (now.turnsTold_withCombat ref _ after)
    | paused left count =>
      have later : (s.combat ref).Served s.table (rolls ++ more) left after :=
        served.goesOn goes rfl
      refine .resting count ⟨known_withCombat known _ _, combat_withCombat known _ _, ?_⟩
        (goes.fewer rfl) (now.turnsTold_withCombat ref _ after)
      exact later.undisturbed fun _ _ => rfl
    | finished count =>
      have later : (s.combat ref).Served s.table (rolls ++ more) [] after :=
        served.goesOn goes rfl
      have unmarked : ({ s.combat ref with rolling := false } : Combat) = s.combat ref := by
        rw [← still]
      change Leads _ _ _ _ _ (now.attend ref
        (Combat.opening { s.combat ref with rolling := false } (Combat.remarkRolled after count)))
      rw [unmarked]
      refine leads_of_served inhabited known (later.undisturbed fun other _ => ?_)
      exact congrFun (Combat.token_remarkRolled after count) other

/-- Starting a combat is to begin a batch, if none is under way. -/
theorem startCombat_eq (still : (s.combat ref).rolling = false) :
    s.startCombat ref = flowOfErrand ref .start (s.attend ref (Combat.afterBatch .start
      (({ s.combat ref with rolling := true } : Combat).continueBatch s.table
        ((s.combat ref).candidates s.table) 0))) := by
  rw [startCombat, Combat.start, Combat.beginBatch_of_still still]

theorem Gathers.undisturbed (gathers : Gathers s before ref rolls ahead)
    (undisturbed : before.Undisturbed later ref) : Gathers s later ref rolls ahead := by
  have order : (before.combat ref).combatants = (s.combat ref).combatants := by
    rw [gathers.combat]
  refine ⟨undisturbed.known gathers.known, undisturbed.combat.trans gathers.combat, ?_⟩
  exact gathers.served.undisturbed fun other listed => undisturbed.tokens other (order ▸ listed)

/-- A call that rests between rolls goes on. -/
theorem Gathers.leads {rolled : Nat} (gathers : Gathers s now ref rolls ahead)
    (inhabited : (s.combat ref).combatants ≠ []) (still : (s.combat ref).rolling = false)
    (makes : now.Makes more (.errand ref .start (.resting ahead rolled))) (rested : Bool) :
    Leads s now ref (rolls ++ more) ahead
      (now.takeUpErrand ref .start rested (.resting ahead rolled)) := by
  rw [Makes, gathers.combat] at makes
  rw [takeUpErrand, Combat.rested, gathers.combat]
  exact leads_of_goes inhabited gathers.known still gathers.served makes

/-! ## The first turn -/

theorem Opened.current {opened : Session} {token : TokenRef}
    (opens : Opened s opened ref rolls token) : (opened.combat ref).current = some token := by
  obtain ⟨order, -, leads, combat⟩ := opens.order
  rw [combat, Combat.current, if_pos rfl, ← leads, List.head?_eq_getElem?]

theorem Opened.named {opened : Session} {token : TokenRef}
    (opens : Opened s opened ref rolls token) : (opened.token token).id = (s.token token).id := by
  obtain ⟨order, ordered, leads, -⟩ := opens.order
  have combatant := ordered.perm.subset (List.mem_of_head? leads)
  by_cases candidate : token ∈ (s.combat ref).candidates s.table
  · have rolled : token ∈ rolls.map Roll.ref := by
      rw [opens.rolled]
      exact List.mem_eraseDups.mpr candidate
    obtain ⟨roll, member, rfl⟩ := List.mem_map.mp rolled
    obtain ⟨score, dice, -, -, written⟩ := opens.given roll member
    rw [written]
  · rw [opens.kept token combatant candidate]

/-- What a call announces is what its listeners are told. -/
theorem Opened.turn {opened : Session} {token : TokenRef}
    (opens : Opened s opened ref rolls token) :
    ((opened.combat ref).round, (opened.token token).id) = (1, (s.token token).id) := by
  obtain ⟨order, -, -, combat⟩ := opens.order
  rw [combat, opens.named]

/-- A call that keeps telling of the first turn comes along with it. -/
theorem Opened.opens {opened : Session} {token : TokenRef} {already : List (Nat × String)}
    {piece : Session × ErrandStanding} (opens : Opened s opened ref rolls token)
    (known : ref < now.combats.length) (same : now.combat ref = opened.combat ref)
    (named : (now.token token).id = (s.token token).id)
    (keeps : now.KeepsTelling already (s.combat ref).listeners token
      (1, (s.token token).id) piece) :
    Opens s ref rolls piece (turnsSince now piece.1 ++ already) := by
  obtain ⟨next, standing⟩ := piece
  obtain ⟨combats, ids, more, told, tells⟩ := keeps
  rw [turnsSince_of_append told]
  refine .telling opens (combats ▸ known) ?_ ((ids token).trans named) tells
  rw [Session.combat, combats]
  exact same

theorem Leads.opens {piece : Session × ErrandStanding} (leads : Leads s now ref rolls ahead piece) :
    Opens s ref rolls piece (turnsSince now piece.1) := by
  cases leads with
  | resting rolled gathers fewer silent =>
    rw [turnsSince_of_same silent]
    exact .resting rolled gathers
  | raised mishap silent =>
    rw [turnsSince_of_same silent]
    exact .raised mishap
  | @telling opened token opens silent =>
    have keeps := keepsTelling_tellListeners [] opened
      (List.nil_append (s.combat ref).listeners).symm opens.current
    rw [opens.turn] at keeps
    have along := opens.opens opens.known rfl opens.named keeps
    rw [List.length_nil, List.replicate_zero, List.append_nil] at along
    rwa [turnsSince, ← silent]

/-- A call that is taken up goes on as before. -/
theorem Opens.takenUp {piece : Session × ErrandStanding} {told : List (Nat × String)}
    {activity : Activity} (opens : Opens s ref rolls piece told)
    (held : (before, .held activity) = flowOfErrand ref .start piece)
    (inhabited : (s.combat ref).combatants ≠ []) (still : (s.combat ref).rolling = false)
    (undisturbed : before.Undisturbed later ref) (makes : later.Makes more activity)
    (rested : Bool) :
    ∃ piece, later.takeUpActivity rested activity = flowOfErrand ref .start piece ∧
      Opens s ref (rolls ++ more) piece (turnsSince later piece.1 ++ told) := by
  cases opens with
  | @resting before ahead rolled gathers =>
    cases held
    refine ⟨later.takeUpErrand ref .start rested (.resting ahead rolled), rfl, ?_⟩
    rw [List.append_nil]
    exact ((gathers.undisturbed undisturbed).leads inhabited still makes rested).opens
  | raised mishap => cases held
  | @telling opened before token standing told opens known same named tells =>
    cases tells with
    | failed failure split => cases held
    | done => cases held
    | @listening already rest now run hold split =>
      cases held
      obtain rfl : more = [] := makes
      obtain ⟨order, ordered, leads, combat⟩ := opens.order
      have listed : token ∈ (before.combat ref).combatants := by
        rw [same, combat]
        exact List.mem_of_head? leads
      have here : later.combat ref = opened.combat ref := undisturbed.combat.trans same
      have namedLater : (later.token token).id = (s.token token).id := by
        rw [undisturbed.tokens token listed]
        exact named
      have isCurrent : (later.combat ref).current = some token := by
        rw [here]
        exact opens.current
      have turn : ((later.combat ref).round, (later.token token).id) = (1, (s.token token).id) := by
        rw [here, namedLater, ← opens.turn, opens.named]
      have keeps : later.KeepsTelling _ _ _ _
          (later.takeUpErrand ref .start rested (.listening token rest run hold)) :=
        keepsTelling_takeUpErrand split isCurrent rested
      rw [turn] at keeps
      rw [List.append_nil]
      refine ⟨later.takeUpErrand ref .start rested (.listening token rest run hold), rfl, ?_⟩
      exact opens.opens (undisturbed.known known) here namedLater keeps

/-! ## Whole calls -/

theorem Opening.opens {flow : Session × Flow} {told : List (Nat × String)}
    (opening : Opening s ref rolls flow told) (known : ref < s.combats.length)
    (inhabited : (s.combat ref).combatants ≠ []) (still : (s.combat ref).rolling = false) :
    ∃ piece, flow = flowOfErrand ref .start piece ∧ Opens s ref rolls piece told := by
  induction opening with
  | called goes =>
    have leads := leads_of_goes inhabited known still (Combat.served_candidates _ _) goes
    refine ⟨_, startCombat_eq still, ?_⟩
    rw [startCombat_eq still, session_flowOfErrand]
    exact leads.opens
  | takenUp earlier later rested undisturbed makes inductionHypothesis =>
    obtain ⟨piece, held, opens⟩ := inductionHypothesis
    obtain ⟨further, taken, along⟩ :=
      opens.takenUp held inhabited still undisturbed makes rested
    refine ⟨further, taken, ?_⟩
    rw [taken, session_flowOfErrand]
    exact along

/-- Each time that a call is taken up between two rolls fewer combatants are ahead, and the
listeners come to their end. -/
theorem Leads.finishes {now : Session} {rolls : List Roll} {ahead : List TokenRef}
    {piece : Session × ErrandStanding} (leads : Leads s now ref rolls ahead piece)
    (inhabited : (s.combat ref).combatants ≠ []) (still : (s.combat ref).rolling = false) :
    Finishes (StandBy ref) (flowOfErrand ref .start piece) := by
  cases leads with
  | telling opens silent => exact finishes_tellListeners (fun _ _ allowed => allowed.2) _ _
  | raised mishap silent => exact Finishes.done _ _
  | @resting next left rolled gathers fewer silent =>
    refine Finishes.held next _ fun later rested allowed => ?_
    obtain ⟨more, makes⟩ := later.exists_makes (.errand ref .start (.resting left rolled))
    exact ((gathers.undisturbed allowed.1).leads inhabited still makes rested).finishes inhabited
      still
termination_by ahead.length

/-- The hero has rolled, and the combat is about to be opened again. -/
def gathered : Combat.Step Combat.Batch :=
  (trio.combat 0).beginBatch trio.table

end TurnScript.Session
