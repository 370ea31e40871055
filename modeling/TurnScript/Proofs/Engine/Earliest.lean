import TurnScript.Proofs.Engine.Interpreter

/-!
# Which outcome decides a condition

Four conditions ask about an outcome of the run: the first attack, or the first outcome with a
saving throw. What comes first is looked up in the ledger, where a place keeps its position while
its outcome is replaced. So the answer is that of the outcome that was first in time as long as no
id is recorded again whose place is not behind the place of that outcome. As soon as one is, the
answer can be any.
-/

namespace TurnScript

/-- What an outcome can tell about. -/
inductive Matter where
  | attack
  | save
  deriving Repr, DecidableEq

/-- Whether an outcome tells about a matter. -/
def Matter.isToldBy : Matter → Outcome → Bool
  | attack, outcome => outcome.kind == .attack
  | save, outcome => outcome.saved.isSome

/-- About what a kind of condition asks the ledger, and which outcomes it takes for a yes. -/
def ConditionKind.question? : ConditionKind → Option (Matter × (Outcome → Bool))
  | attackHit => some (.attack, fun outcome => outcome.hit == some true)
  | attackMiss => some (.attack, fun outcome => outcome.hit == some false)
  | saveSuccess => some (.save, fun outcome => outcome.saved == some true)
  | saveFailure => some (.save, fun outcome => outcome.saved == some false)
  | _ => none

/-- The outcome that a ledger has first about a matter. -/
def Ledger.first? (ledger : Ledger) (matter : Matter) : Option Outcome :=
  (ledger.find? fun entry => matter.isToldBy entry.2).map (·.2)

/-- The answer to a question is that of the outcome that the ledger has first about it, and yes if
there is none. -/
theorem Condition.verdict_eq_first? {c : Condition} {matter : Matter} {isYes : Outcome → Bool}
    (asks : c.kind.question? = some (matter, isYes)) (token : Token) (ledger : Ledger)
    (range : RangeAnswer) : c.verdict token ledger range = (ledger.first? matter).all isYes := by
  cases kind : c.kind <;> simp [ConditionKind.question?, kind] at asks
  all_goals
    obtain ⟨rfl, rfl⟩ := asks
    simp [verdict, check, kind, Ledger.firstAttack?, Ledger.firstSave?, Ledger.first?,
      Matter.isToldBy]

/-- Outcomes can answer a question either way. -/
theorem ConditionKind.exists_answer {kind : ConditionKind} {matter : Matter}
    {isYes : Outcome → Bool} (asks : kind.question? = some (matter, isYes)) (answer : Bool) :
    ∃ outcome, matter.isToldBy outcome = true ∧ isYes outcome = answer := by
  cases kind <;> simp [question?] at asks
  case attackHit =>
    obtain ⟨rfl, rfl⟩ := asks
    exact ⟨{ success := true, kind := .attack, hit := some answer }, rfl, by cases answer <;> rfl⟩
  case attackMiss =>
    obtain ⟨rfl, rfl⟩ := asks
    exact ⟨{ success := true, kind := .attack, hit := some !answer }, rfl, by cases answer <;> rfl⟩
  case saveSuccess =>
    obtain ⟨rfl, rfl⟩ := asks
    exact ⟨{ success := true, saved := some answer }, rfl, by cases answer <;> rfl⟩
  case saveFailure =>
    obtain ⟨rfl, rfl⟩ := asks
    exact ⟨{ success := true, saved := some !answer }, rfl, by cases answer <;> rfl⟩

/-! ## Latest outcomes -/

/-- The latest outcome of an id is a later one, if there is one. -/
theorem latest?_append (earlier later : List (Action × Outcome)) (id : String) :
    latest? (earlier ++ later) id = (latest? later id).or (latest? earlier id) := by
  simp [latest?, List.find?_append, Option.map_or]

theorem latest?_eq_none {plays : List (Action × Outcome)} {id : String}
    (unplayed : id ∉ idsOf plays) : latest? plays id = none := by
  have missed : ∀ play ∈ plays.reverse, ¬(play.1.id == id) = true := by
    intro play member same
    exact unplayed (List.mem_map.mpr ⟨play, List.mem_reverse.mp member, by simpa using same⟩)
  rw [latest?, List.find?_eq_none.mpr missed]
  rfl

theorem mem_of_latest? {plays : List (Action × Outcome)} {id : String} {outcome : Outcome}
    (latest : latest? plays id = some outcome) : ∃ play ∈ plays, play.2 = outcome := by
  obtain ⟨play, found, rfl⟩ := Option.map_eq_some_iff.mp latest
  exact ⟨play, List.mem_reverse.mp (List.mem_of_find?_eq_some found), rfl⟩

/-- Where all outcomes are one and the same, it is the latest one of every id. -/
theorem latest?_of_all_eq {plays : List (Action × Outcome)} {outcome : Outcome} {id : String}
    (same : ∀ play ∈ plays, play.2 = outcome) (played : id ∈ idsOf plays) :
    latest? plays id = some outcome := by
  obtain ⟨play, member, rfl⟩ := List.mem_map.mp played
  have found : (plays.reverse.find? fun other => other.1.id == play.1.id).isSome = true :=
    List.find?_isSome.mpr ⟨play, List.mem_reverse.mpr member, by simp⟩
  obtain ⟨other, foundOther⟩ := Option.isSome_iff_exists.mp found
  have recorded : other ∈ plays :=
    List.mem_reverse.mp (List.mem_of_find?_eq_some foundOther)
  rw [latest?, foundOther, Option.map_some, same other recorded]

/-! ## The places up to that of an outcome -/

/-- The ids with a place before the one that an id has if it is recorded after some dispatches. -/
def placesBefore (id : String) (before : List (Action × Outcome)) : List String :=
  (idsOf before).takeWhile (· != id)

/-- The ids whose places are not behind that place. -/
def placesUpTo (id : String) (before : List (Action × Outcome)) : List String :=
  placesBefore id before ++ [id]

theorem ne_of_mem_placesBefore {id other : String} {before : List (Action × Outcome)}
    (member : other ∈ placesBefore id before) : other ≠ id := by
  have passed : (other != id) = true :=
    List.all_eq_true.mp List.all_takeWhile other member
  simpa using passed

/-- The places up to that of an id come first among all. -/
theorem placesUpTo_first (id : String) (before : List (Action × Outcome))
    (after : List String) : placesUpTo id before <+: idsOf before ++ id :: after := by
  unfold placesUpTo placesBefore
  induction idsOf before with
  | nil => exact List.prefix_append [id] after
  | cons other rest inductionHypothesis =>
    by_cases same : other = id
    · subst same
      simp
    · simpa [same, List.takeWhile_cons] using inductionHypothesis

section Search

variable {α β : Type} {f : α → Option β} {first row : List α} {value : α} {found : β}

/-- A search that can find only one thing finds it where it is. -/
theorem findSome?_of_agree (agree : ∀ value ∈ row, f value = none ∨ f value = some found)
    (member : value ∈ row) (finds : f value = some found) : row.findSome? f = some found := by
  have isFound : (row.findSome? f).isSome = true :=
    List.findSome?_isSome_iff.mpr ⟨value, member, by simp [finds]⟩
  obtain ⟨result, results⟩ := Option.isSome_iff_exists.mp isFound
  obtain ⟨other, memberOther, findsOther⟩ := List.exists_of_findSome?_eq_some results
  rcases agree other memberOther with none | some
  · rw [none] at findsOther
    cases findsOther
  · rw [results, ← findsOther, some]

/-- A search that finds something in a first part of a row finds it in the row. -/
theorem findSome?_of_first (isFirst : first <+: row) (finds : first.findSome? f = some found) :
    row.findSome? f = some found := by
  obtain ⟨rest, rfl⟩ := isFirst
  rw [List.findSome?_append, finds]
  rfl

end Search

/-- What a search for a matter finds at the place of an id. -/
def tidings? (matter : Matter) (plays : List (Action × Outcome)) (id : String) : Option Outcome :=
  (latest? plays id).filter matter.isToldBy

section Tidings

variable {matter : Matter} {before after : List (Action × Outcome)} {action : Action}
  {outcome other : Outcome} {id : String}

/-- Where all that was recorded of late is one outcome about the matter, it is at all its places. -/
theorem tidings?_of_repeated (told : matter.isToldBy other = true)
    (same : ∀ play ∈ after, play.2 = other) (repeated : id ∈ idsOf after) :
    tidings? matter (before ++ (action, outcome) :: after) id = some other := by
  rw [tidings?, ← List.singleton_append, latest?_append, latest?_append,
    latest?_of_all_eq same repeated]
  simp [told]

/-- A place that has not been written again has no tidings if it had none. -/
theorem tidings?_of_unrepeated (untold : ∀ play ∈ before, matter.isToldBy play.2 = false)
    (distinct : id ≠ action.id) (unrepeated : id ∉ idsOf after) :
    tidings? matter (before ++ (action, outcome) :: after) id = none := by
  have skipped : latest? [(action, outcome)] id = none :=
    latest?_eq_none (by simpa [idsOf] using distinct)
  rw [tidings?, ← List.singleton_append, latest?_append, latest?_append,
    latest?_eq_none unrepeated, skipped, Option.or_none, Option.none_or]
  cases old : latest? before id with
  | none => rfl
  | some earlier =>
    obtain ⟨play, recorded, rfl⟩ := mem_of_latest? old
    simp [untold play recorded]

/-- The place of an outcome about the matter has it until it is written again. -/
theorem tidings?_of_recorded (told : matter.isToldBy outcome = true)
    (unrepeated : action.id ∉ idsOf after) :
    tidings? matter (before ++ (action, outcome) :: after) action.id = some outcome := by
  rw [tidings?, ← List.singleton_append, latest?_append, latest?_append,
    latest?_eq_none unrepeated]
  simp [latest?, told]

/-- What a ledger has first is found by a search of the ids in the order of time. -/
theorem Ledger.first?_recordAll (matter : Matter) (plays : List (Action × Outcome)) :
    (recordAll [] plays).first? matter = (idsOf plays).findSome? (tidings? matter plays) := by
  rw [first?, find?_recordAll, idsOf, List.findSome?_map]
  rfl

/-- A search of the places up to that of an outcome settles what the ledger has first. -/
theorem Ledger.first?_of_places {first : List String}
    (isFirst : first <+: placesUpTo action.id before)
    (finds : first.findSome? (tidings? matter (before ++ (action, outcome) :: after)) =
      some other) :
    (recordAll [] (before ++ (action, outcome) :: after)).first? matter = some other := by
  have row : idsOf (before ++ (action, outcome) :: after) =
      idsOf before ++ action.id :: idsOf after := by simp [idsOf]
  rw [first?_recordAll, row]
  exact findSome?_of_first (isFirst.trans (placesUpTo_first action.id before (idsOf after))) finds

/-- The outcome about a matter that is first in time is what the ledger has first, as long as no
id with a place up to its place is recorded again. -/
theorem Ledger.first?_of_unrepeated (untold : ∀ play ∈ before, matter.isToldBy play.2 = false)
    (told : matter.isToldBy outcome = true)
    (unrepeated : ∀ id ∈ placesUpTo action.id before, id ∉ idsOf after) :
    (recordAll [] (before ++ (action, outcome) :: after)).first? matter = some outcome := by
  have last : action.id ∈ placesUpTo action.id before := by simp [placesUpTo]
  have recorded : tidings? matter (before ++ (action, outcome) :: after) action.id =
      some outcome := tidings?_of_recorded told (unrepeated action.id last)
  have agree : ∀ id ∈ placesUpTo action.id before,
      tidings? matter (before ++ (action, outcome) :: after) id = none ∨
        tidings? matter (before ++ (action, outcome) :: after) id = some outcome := by
    intro id member
    rcases List.mem_append.mp member with earlier | same
    · exact .inl (tidings?_of_unrepeated untold (ne_of_mem_placesBefore earlier)
        (unrepeated id member))
    · rw [List.mem_singleton.mp same]
      exact .inr recorded
  exact first?_of_places List.prefix_rfl (findSome?_of_agree agree last recorded)

/-- Once an id with a place up to that of an outcome is recorded again, and all that is recorded
after the outcome is one other outcome about the matter, that one is what the ledger has first. -/
theorem Ledger.first?_of_repeated (untold : ∀ play ∈ before, matter.isToldBy play.2 = false)
    (told : matter.isToldBy other = true) (same : ∀ play ∈ after, play.2 = other)
    (upTo : id ∈ placesUpTo action.id before) (repeated : id ∈ idsOf after) :
    (recordAll [] (before ++ (action, outcome) :: after)).first? matter = some other := by
  have early : ∀ id ∈ placesBefore action.id before,
      tidings? matter (before ++ (action, outcome) :: after) id = none ∨
        tidings? matter (before ++ (action, outcome) :: after) id = some other := by
    intro id member
    by_cases again : id ∈ idsOf after
    · exact .inr (tidings?_of_repeated told same again)
    · exact .inl (tidings?_of_unrepeated untold (ne_of_mem_placesBefore member) again)
  have finds : tidings? matter (before ++ (action, outcome) :: after) id = some other :=
    tidings?_of_repeated told same repeated
  -- If the place of the outcome itself is not written again, one before it is.
  rcases List.mem_append.mp upTo with before | last
  · exact first?_of_places (List.prefix_append _ _) (findSome?_of_agree early before finds)
  · rw [List.mem_singleton.mp last] at finds
    have agree : ∀ id ∈ placesUpTo action.id before,
        tidings? matter (before ++ (action, outcome) :: after) id = none ∨
          tidings? matter (before ++ (action, outcome) :: after) id = some other := by
      intro id member
      rcases List.mem_append.mp member with earlier | same
      · exact early id earlier
      · rw [List.mem_singleton.mp same]
        exact .inr finds
    exact first?_of_places List.prefix_rfl (findSome?_of_agree agree
      (List.mem_append_right _ (List.mem_singleton.mpr rfl)) finds)

/-- Without any outcome about a matter a ledger has none. -/
theorem Ledger.first?_of_untold {plays : List (Action × Outcome)}
    (untold : ∀ play ∈ plays, matter.isToldBy play.2 = false) :
    (recordAll [] plays).first? matter = none := by
  rw [first?_recordAll]
  apply List.findSome?_eq_none_iff.mpr
  intro id _
  cases latest : latest? plays id with
  | none => simp [tidings?, latest]
  | some outcome =>
    obtain ⟨play, recorded, rfl⟩ := mem_of_latest? latest
    simp [tidings?, latest, untold play recorded]

/-- The answer to a question stands, whatever is recorded after the outcome that gave it, exactly
if no id with a place up to the place of that outcome is among those recorded. -/
theorem Condition.answer_stands_iff {c : Condition} {isYes : Outcome → Bool}
    (asks : c.kind.question? = some (matter, isYes)) (token : Token) (range : RangeAnswer)
    (untold : ∀ play ∈ before, matter.isToldBy play.2 = false)
    (told : matter.isToldBy outcome = true) (ids : List String) :
    (∀ after, idsOf after = ids →
      c.verdict token (Ledger.recordAll [] (before ++ (action, outcome) :: after)) range =
        isYes outcome) ↔
    ∀ id ∈ placesUpTo action.id before, id ∉ ids := by
  constructor
  · intro stands id upTo repeated
    obtain ⟨contrary, toldContrary, answer⟩ := c.kind.exists_answer asks (!isYes outcome)
    -- Let everything that is recorded from now on say the contrary.
    let after : List (Action × Outcome) := ids.map fun id => ({ id }, contrary)
    have listed : idsOf after = ids := by simp [after, idsOf, Function.comp_def]
    have same : ∀ play ∈ after, play.2 = contrary := by
      intro play member
      obtain ⟨_, _, rfl⟩ := List.mem_map.mp member
      rfl
    have first : (Ledger.recordAll [] (before ++ (action, outcome) :: after)).first? matter =
        some contrary :=
      Ledger.first?_of_repeated untold toldContrary same upTo (listed ▸ repeated)
    have decided := stands after listed
    rw [c.verdict_eq_first? asks, first, Option.all_some, answer] at decided
    cases yes : isYes outcome <;> simp [yes] at decided
  · intro unrepeated after listed
    subst listed
    rw [c.verdict_eq_first? asks, Ledger.first?_of_unrepeated untold told unrepeated,
      Option.all_some]

end Tidings

namespace Engine

variable {σ : Type} {e : Engine σ} {history : List (Happening σ)}

/-- A question that a run puts to its ledger is answered by yes as long as no outcome about the
matter has been recorded. From then on the outcome that was first in time answers it, whatever
else is recorded in the run, as long as no id is recorded again whose place is not behind the
place of that outcome; and where one is, outcomes are possible that turn the answer round. -/
theorem first_outcome_answers {subject : σ} {script : List Action} (free : e.executing = false)
    (allowed : (e.effect (.arrived subject script)).allows history = true) :
    ∃ r, ((e.effect (.arrived subject script)).after history).run? e.entries.length = some r ∧
      ∀ (c : Condition) (matter : Matter) (isYes : Outcome → Bool),
        c.kind.question? = some (matter, isYes) → ∀ (token : Token) (range : RangeAnswer),
        ((∀ play ∈ playsOf (newsFor e.entries.length history), matter.isToldBy play.2 = false) →
          c.verdict token r.ledger range = true) ∧
        ∀ before action outcome, (∀ play ∈ before, matter.isToldBy play.2 = false) →
          matter.isToldBy outcome = true →
          (∀ after, playsOf (newsFor e.entries.length history) =
              before ++ (action, outcome) :: after →
            (∀ id ∈ placesUpTo action.id before, id ∉ idsOf after) →
            c.verdict token r.ledger range = isYes outcome) ∧
          ∀ ids, (∀ after, idsOf after = ids →
              c.verdict token (Ledger.recordAll [] (before ++ (action, outcome) :: after)) range =
                isYes outcome) ↔
            ∀ id ∈ placesUpTo action.id before, id ∉ ids := by
  obtain ⟨r, known, _, ledger, _⟩ := arrived_after free allowed
  refine ⟨r, known, ?_⟩
  intro c matter isYes asks token range
  constructor
  · intro untold
    rw [ledger, c.verdict_eq_first? asks, Ledger.first?_of_untold untold, Option.all_none]
  · intro before action outcome untold told
    refine ⟨?_, c.answer_stands_iff asks token range untold told⟩
    intro after recorded unrepeated
    rw [ledger, recorded]
    exact (c.answer_stands_iff asks token range untold told (idsOf after)).mpr unrepeated after rfl

/-- An action that does nothing but lead aside. -/
def opening : Action := { id := "opening", kind := .endTurn, onSuccess := some "blow" }

/-- An attack that is dispatched as a branch and again in its own slot. -/
def blow : Action := { id := "blow", kind := .attack, order := 1 }

/-- An action for the case that the first attack has hit. -/
def pursuit : Action :=
  { id := "pursuit", kind := .endTurn, order := 2, condition := { kind := .attackHit } }

/-- The attack hits as a branch, and then it is dispatched in its own slot with some outcome. -/
def blowTwice (second : Outcome) : List (Happening String) :=
  [.told 0 (.judged opening default .noChecker), .told 0 (.played opening { success := true }),
    .told 0 .rested, .told 0 (.played blow { success := true, kind := .attack, hit := some true }),
    .told 0 .rested, .told 0 (.judged blow default .noChecker), .told 0 (.played blow second),
    .told 0 .rested]

/-- An attack that misses when it is dispatched for the second time takes the place of the one that
has hit, and the action for the case of a hit is skipped. -/
theorem second_blow_answers :
    let missed : Outcome := { success := true, kind := .attack, hit := some false }
    let start := ({} : Engine String).effect (.arrived "hero" [opening, blow, pursuit])
    start.allows (blowTwice missed) = true ∧
    ((playsOf (newsFor 0 (blowTwice missed))).find? fun play => play.2.kind == .attack).map
      (·.2.hit) = some (some true) ∧
    ((start.after (blowTwice missed)).run? 0).map (fun r => (r.stage,
      pursuit.condition.verdict default r.ledger .noChecker)) =
        some (.asking pursuit [], false) := by
  exact ⟨by cbv, by decide, by cbv⟩

/-- The one attack that the run has made before it comes to the pursuit answers for it. -/
theorem first_outcome_answers_blow :
    let start := ({} : Engine String).effect (.arrived "hero" [opening, blow, pursuit])
    let history := (blowTwice default).take 5
    start.allows history = true ∧
    ((start.after history).run? 0).map (fun r =>
      pursuit.condition.verdict default r.ledger .noChecker) = some true := by
  intro start history
  have allowed : start.allows history = true := by cbv
  obtain ⟨r, known, answers⟩ := first_outcome_answers (e := {}) rfl allowed
  obtain ⟨_, decided⟩ := answers pursuit.condition .attack _ rfl default .noChecker
  have hit := (decided [(opening, { success := true })] blow
    { success := true, kind := .attack, hit := some true } (by decide) rfl).1 [] (by decide)
    (by simp [idsOf])
  refine ⟨allowed, ?_⟩
  rw [show (start.after history).run? 0 = some r from known, Option.map_some, hit]
  rfl

end Engine
end TurnScript
