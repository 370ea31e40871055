import TurnScript.Proofs.Engine.Recording
import TurnScript.Proofs.Store.Appending

/-!
# Arranging a queue by ids

A queue is rebuilt by a row of ids: the actions come in the order in which the row names them, ids
that no action has are passed over, and actions that are not named are dropped. Every action is
numbered by the place that it gets. But an id that is named again brings its action again, and then
the action stands at both places under the later number. So the queue is the arrangement that was
asked for exactly where no known id is named twice.
-/

namespace TurnScript

/-- The ids of a row that some action has. -/
def knownIds (stored : List Action) (ids : List String) : List String :=
  ids.filter fun id => stored.any (·.id == id)

/-- The last place at which an id stands in a row of ids. -/
def lastPlace (ids : List String) (id : String) : Nat :=
  ids.length - 1 - ids.reverse.findIdx (· == id)

/-- An id of a row stands at its last place and nowhere behind it. -/
theorem getElem?_lastPlace {ids : List String} {id : String} (member : id ∈ ids) :
    ids[lastPlace ids id]? = some id ∧
      ∀ place, lastPlace ids id < place → ids[place]? ≠ some id := by
  have inside : ids.reverse.findIdx (· == id) < ids.reverse.length :=
    List.findIdx_lt_length_of_exists ⟨id, List.mem_reverse.mpr member, BEq.rfl⟩
  have found : ids.reverse[ids.reverse.findIdx (· == id)] = id := by
    simpa using List.findIdx_getElem (p := (· == id)) (w := inside)
  rw [List.length_reverse] at inside
  constructor
  · rw [List.getElem_reverse] at found
    exact List.getElem?_eq_some_iff.mpr ⟨by unfold lastPlace; omega, found⟩
  · intro place behind same
    obtain ⟨bound, there⟩ := List.getElem?_eq_some_iff.mp same
    have mirrored : ids.length - 1 - place < ids.reverse.findIdx (· == id) := by
      unfold lastPlace at behind
      omega
    have unlike := List.not_of_lt_findIdx mirrored
    have back : ids.length - 1 - (ids.length - 1 - place) = place := by omega
    simp [List.getElem_reverse, back, there] at unlike

theorem lastPlace_lt {ids : List String} {id : String} (member : id ∈ ids) :
    lastPlace ids id < ids.length :=
  (List.getElem?_eq_some_iff.mp (getElem?_lastPlace member).1).1

/-- Where no id stands twice, the last place of an id is its only one. -/
theorem lastPlace_getElem {ids : List String} (distinct : ids.Nodup) {place : Nat}
    (inside : place < ids.length) : lastPlace ids ids[place] = place := by
  have member : ids[place] ∈ ids := List.getElem_mem inside
  obtain ⟨_, there⟩ := List.getElem?_eq_some_iff.mp (getElem?_lastPlace member).1
  exact (List.Nodup.getElem_inj_iff distinct).mp there

/-- The last place of the id at the end is the end. -/
theorem lastPlace_end {ids : List String} {place : Nat} (inside : place < ids.length)
    (isEnd : place + 1 = ids.length) : lastPlace ids ids[place] = place := by
  have member : ids[place] ∈ ids := List.getElem_mem inside
  have bound := lastPlace_lt member
  have notBehind : ¬ lastPlace ids ids[place] < place := fun behind =>
    (getElem?_lastPlace member).2 place behind (List.getElem?_eq_getElem inside)
  omega

/-! ## What an arrangement should be -/

/-- What a queue should come to that is rebuilt by a row of ids: its actions have different ids,
which are the known ones of the row in the order in which they are first named, each has its place
as its order number, and each is a stored one but for that. -/
structure IsArrangement (stored : List Action) (ids : List String) (arranged : List Action) :
    Prop where
  distinct : (arranged.map (·.id)).Nodup
  named : arranged.map (·.id) = (knownIds stored ids).eraseDups
  placed : CountsFrom 0 arranged
  kept : ∀ action ∈ arranged, ∃ source ∈ stored, action = { source with order := action.order }

/-- A queue without repeated ids comes to one arrangement at most. -/
theorem IsArrangement.unique {stored arranged others : List Action} {ids : List String}
    (distinct : (stored.map (·.id)).Nodup) (isOne : IsArrangement stored ids arranged)
    (isOther : IsArrangement stored ids others) : arranged = others := by
  have sameIds : arranged.map (·.id) = others.map (·.id) := isOne.named.trans isOther.named.symm
  have sameLength : arranged.length = others.length := by
    simpa using congrArg List.length sameIds
  refine List.ext_getElem sameLength fun place inside inOthers => ?_
  have sameId : arranged[place].id = others[place].id := by
    simpa [inside, inOthers] using congrArg (·[place]?) sameIds
  have sameOrder : arranged[place].order = others[place].order :=
    (isOne.placed place inside).trans (isOther.placed place inOthers).symm
  obtain ⟨source, inStored, one⟩ := isOne.kept _ (List.getElem_mem inside)
  obtain ⟨otherSource, otherInStored, other⟩ := isOther.kept _ (List.getElem_mem inOthers)
  have sourceId : arranged[place].id = source.id := by rw [one]
  have otherSourceId : others[place].id = otherSource.id := by rw [other]
  have sameSource : source = otherSource :=
    List.inj_on_of_nodup_map distinct inStored otherInStored
      (sourceId.symm.trans (sameId.trans otherSourceId))
  rw [one, other, sameSource, sameOrder]

/-! ## What an arrangement is -/

/-- The ids of the actions that are found are the known ones of the row. -/
theorem ids_found (stored : List Action) (ids : List String) :
    (ids.filterMap fun id => stored.reverse.find? (·.id == id)).map (·.id) =
      knownIds stored ids := by
  rw [List.map_filterMap, knownIds, ← List.filterMap_eq_filter]
  refine List.filterMap_congr fun id _ => ?_
  cases found : stored.reverse.find? (·.id == id) with
  | none =>
    have unknown : stored.any (·.id == id) = false := by simpa using found
    simp [Option.guard, unknown]
  | some action =>
    have same : action.id = id := by simpa using List.find?_some found
    have inStored : action ∈ stored := List.mem_reverse.mp (List.mem_of_find?_eq_some found)
    have known : stored.any (·.id == id) = true := List.any_eq_true.mpr ⟨action, inStored, by simpa⟩
    simp [Option.guard, known, same]

/-- Every action that is found gets the last place of its id among the known ones. -/
theorem arrange_eq (stored : List Action) (ids : List String) :
    arrange stored ids =
      (ids.filterMap fun id => stored.reverse.find? (·.id == id)).map fun action =>
        { action with order := lastPlace (knownIds stored ids) action.id } := by
  unfold arrange lastPlace
  rw [← ids_found stored ids]
  generalize (ids.filterMap fun id => stored.reverse.find? (·.id == id)) = found
  refine List.map_congr_left fun action _ => ?_
  rw [← List.map_reverse, List.findIdx_map, List.length_map]
  rfl

/-- The ids of an arrangement are the known ones of the row, as often as they are named. -/
@[simp] theorem ids_arrange (stored : List Action) (ids : List String) :
    (arrange stored ids).map (·.id) = knownIds stored ids := by
  rw [arrange_eq, List.map_map]
  exact ids_found stored ids

@[simp] theorem length_arrange (stored : List Action) (ids : List String) :
    (arrange stored ids).length = (knownIds stored ids).length := by
  rw [← ids_arrange, List.length_map]

/-- Every action of an arrangement is a stored one but for its order number, which is the last place
of its id. -/
theorem source_of_mem_arrange {stored : List Action} {ids : List String} {action : Action}
    (member : action ∈ arrange stored ids) :
    ∃ source ∈ stored,
      action = { source with order := lastPlace (knownIds stored ids) source.id } := by
  rw [arrange_eq] at member
  obtain ⟨source, isFound, rfl⟩ := List.mem_map.mp member
  obtain ⟨id, _, found⟩ := List.mem_filterMap.mp isFound
  exact ⟨source, List.mem_reverse.mp (List.mem_of_find?_eq_some found), rfl⟩

theorem order_arrange {stored : List Action} {ids : List String} {place : Nat}
    (inside : place < (arrange stored ids).length)
    (known : place < (knownIds stored ids).length) :
    (arrange stored ids)[place].order =
      lastPlace (knownIds stored ids) (knownIds stored ids)[place] := by
  obtain ⟨source, _, same⟩ := source_of_mem_arrange (List.getElem_mem inside)
  have id : (arrange stored ids)[place].id = (knownIds stored ids)[place] := by
    simp only [← ids_arrange stored ids, List.getElem_map]
  rw [← id, same]

/-- Where no known id is named twice, the order numbers are the places. -/
theorem countsFrom_arrange (stored : List Action) {ids : List String}
    (distinct : (knownIds stored ids).Nodup) : CountsFrom 0 (arrange stored ids) := by
  intro place inside
  have known : place < (knownIds stored ids).length := by rwa [length_arrange] at inside
  rw [order_arrange inside known, lastPlace_getElem distinct known, Nat.zero_add]

/-- A queue is rebuilt as it should be exactly if no known id is named twice. -/
theorem isArrangement_arrange (stored : List Action) (ids : List String) :
    IsArrangement stored ids (arrange stored ids) ↔ (knownIds stored ids).Nodup := by
  constructor
  · intro arrangement
    rw [← ids_arrange]
    exact arrangement.distinct
  · intro distinct
    constructor
    case distinct =>
      rwa [ids_arrange]
    case named =>
      rw [ids_arrange, eraseDups_of_nodup distinct]
    case placed =>
      exact countsFrom_arrange stored distinct
    case kept =>
      intro action member
      obtain ⟨source, inStored, same⟩ := source_of_mem_arrange member
      refine ⟨source, inStored, ?_⟩
      rw [same]

namespace Archive

/-- An arrangement of actions that can be written can be written if there is room for the last
place. -/
theorem all_isWritable_arrange {stored : List Action}
    (writable : ∀ action ∈ stored, action.isWritable = true) (ids : List String) :
    (arrange stored ids).all Action.isWritable = true ↔
      (knownIds stored ids).length ≤ placeLimit := by
  have each (place : Nat) (inside : place < (arrange stored ids).length)
      (known : place < (knownIds stored ids).length) :
      (arrange stored ids)[place].isWritable = true ↔
        lastPlace (knownIds stored ids) (knownIds stored ids)[place] < placeLimit := by
    obtain ⟨source, inStored, same⟩ := source_of_mem_arrange (List.getElem_mem inside)
    have order := order_arrange inside known
    rw [same] at order ⊢
    rw [← Int.ofNat.inj order]
    exact isWritable_placed (writable source inStored) _
  rw [List.all_eq_true]
  constructor
  · intro all
    by_contra long
    have known : (knownIds stored ids).length - 1 < (knownIds stored ids).length := by omega
    have inside : (knownIds stored ids).length - 1 < (arrange stored ids).length := by
      rwa [length_arrange]
    have last := (each _ inside known).mp (all _ (List.getElem_mem inside))
    rw [lastPlace_end known (by omega)] at last
    omega
  · intro short action member
    obtain ⟨place, inside, rfl⟩ := List.getElem_of_mem member
    have known : place < (knownIds stored ids).length := by rwa [length_arrange] at inside
    have bound := lastPlace_lt (List.getElem_mem known)
    exact (each place inside known).mpr (bound.trans_le short)

variable {a : Archive} {shelves : Shelves}

/-- What comes of rebuilding a queue by ids: nothing if there is no room for the last place or the
table is locked, else the arrangement. -/
theorem Holds.reorderActions_cases (holds : a.Holds shelves) (subject : String)
    (ids : List String) :
    let stored := actionsOn (shelves subject)
    ((a.readOnly = true ∨ placeLimit < (knownIds stored ids).length) ∧
        ∃ error, a.reorderActions subject ids = (.error error, a)) ∨
      (a.readOnly = false ∧ (knownIds stored ids).length ≤ placeLimit ∧
        ∃ later, a.reorderActions subject ids = (.ok (), later) ∧
          later.Holds (Function.update shelves subject
            (some (refilled (shelves subject) (arrange stored ids))))) := by
  intro stored
  have faithful : ∀ action ∈ arrange stored ids, action.IsFaithful :=
    forall_arrange restsOnContent_isFaithful (holds.isFaithful subject) ids
  have writable : ∀ action ∈ stored, action.isWritable = true := fun action member =>
    (holds.isKept subject action member).writable
  have room := all_isWritable_arrange writable ids
  have rebuilding : a.reorderActions subject ids = a.setQueue subject (arrange stored ids) := by
    simp only [Archive.reorderActions, holds.queue, stored]
  rw [rebuilding]
  exact holds.setQueue_room subject faithful room

/-- After every history with valid actions, rebuilding a queue by ids fails only where the table is
locked or there is no room for the last place, and then it leaves every row. Else the queue comes to
the stored actions whose ids are named, in the order of the row and as often as it names them, each
as it was but for its order number, which is the last place of its id. In a queue without repeated
ids that is the arrangement that was asked for exactly if no known id is named twice. -/
theorem rebuilt_as_named {a : Archive} (empty : a.rows = some []) {steps : List StoreStep}
    (valid : ∀ step ∈ steps, step.op.IsValid) (locked : Bool) (subject : String)
    (ids : List String) :
    let final := { (a.takeAll steps).2 with readOnly := locked }
    let result := (final.reorderActions subject ids).1
    let later := (final.reorderActions subject ids).2
    ∃ stored, final.queue subject = (.ok stored, final) ∧
      let known := knownIds stored ids
      ((∃ error, result = .error error) ↔ locked = true ∨ placeLimit < known.length) ∧
        (∀ error, result = .error error → later.rows = final.rows) ∧
        (result = .ok () → ∃ arranged, later.queue subject = (.ok arranged, later) ∧
          arranged.map (·.id) = known ∧
          (∀ action ∈ arranged, ∃ source ∈ stored,
            action = { source with order := lastPlace known source.id }) ∧
          (IsArrangement stored ids arranged ↔ known.Nodup)) := by
  intro final result later
  obtain ⟨shelves, held⟩ := (holds_empty empty).exists_takeAll valid
  have holds : final.Holds shelves := held.congr rfl
  refine ⟨_, holds.queue subject, ?_⟩
  intro known
  rcases holds.reorderActions_cases subject ids with
    ⟨blocked, error, same⟩ | ⟨unlocked, room, left, same, holdsLater⟩
  · simp only [result, later, same]
    refine ⟨by simpa using blocked, by simp, ?_⟩
    rintro ⟨⟩
  · have queue : left.queue subject =
        (.ok (arrange (actionsOn (shelves subject)) ids), left) := by
      rw [holdsLater.queue, Function.update_self, actionsOn_refilled]
    have free : ¬ (locked = true ∨ placeLimit < known.length) := by
      rintro (isLocked | long)
      · exact absurd (isLocked.symm.trans unlocked) (by decide)
      · exact absurd room (Nat.not_le.mpr long)
    simp only [result, later, same]
    refine ⟨by simpa using free, by simp, ?_⟩
    intro _
    refine ⟨_, queue, ids_arrange _ ids, ?_, isArrangement_arrange _ ids⟩
    intro action member
    exact source_of_mem_arrange member

/-- The axe and the bow change places, and are numbered so. -/
theorem rebuilt_as_named_armed :
    let later := (armed.reorderActions "hero" ["axe", "spear", "bow"]).2
    (armed.reorderActions "hero" ["axe", "spear", "bow"]).1 = .ok () ∧
      ∃ arranged, later.queue "hero" = (.ok arranged, later) ∧
        IsArrangement [bow, axe] ["axe", "spear", "bow"] arranged := by
  intro later
  obtain ⟨stored, queue, fails, -, runs⟩ :=
    rebuilt_as_named (a := {}) rfl isValid_arming false "hero" ["axe", "spear", "bow"]
  obtain rfl : stored = [bow, axe] :=
    Except.ok.inj (congrArg Prod.fst (queue.symm.trans queue_armed))
  cases result : (armed.reorderActions "hero" ["axe", "spear", "bow"]).1 with
  | error error =>
    rcases fails.mp ⟨error, result⟩ with locked | long
    · exact absurd locked (by decide)
    · exact absurd (ten_le_placeLimit.trans long.le) (by decide)
  | ok done =>
    obtain ⟨arranged, rebuilt, -, -, arrangement⟩ := runs result
    exact ⟨rfl, arranged, rebuilt, arrangement.mpr (by decide)⟩

/-- The axe that is named again stands at both places, under the number of the later one. -/
theorem axe_named_again :
    let later := (armed.reorderActions "hero" ["axe", "bow", "axe"]).2
    armed.queue "hero" = (.ok [bow, axe], armed) ∧ ([bow, axe].map (·.id)).Nodup ∧
      (armed.reorderActions "hero" ["axe", "bow", "axe"]).1 = .ok () ∧
      later.queue "hero" =
        (.ok [{ axe with order := 2 }, bow, { axe with order := 2 }], later) ∧
      ¬ IsArrangement [bow, axe] ["axe", "bow", "axe"]
        [{ axe with order := 2 }, bow, { axe with order := 2 }] := by
  intro later
  have onShelf : actionsOn (Function.update (fun _ => none) "hero"
      (some { actions := [bow, axe] }) "hero") = [bow, axe] := by
    rw [Function.update_self]
    rfl
  have twice : ¬ IsArrangement [bow, axe] ["axe", "bow", "axe"]
      [{ axe with order := 2 }, bow, { axe with order := 2 }] :=
    fun arrangement => absurd arrangement.distinct (by decide)
  rcases holds_armed.reorderActions_cases "hero" ["axe", "bow", "axe"] with
    ⟨locked | long, _⟩ | ⟨-, -, left, rebuilt, holds⟩
  · exact absurd locked (by decide)
  · rw [onShelf] at long
    exact absurd (ten_le_placeLimit.trans long.le) (by decide)
  · have queue : left.queue "hero" =
        (.ok [{ axe with order := 2 }, bow, { axe with order := 2 }], left) := by
      rw [holds.queue, Function.update_self, actionsOn_refilled, onShelf]
      rfl
    simp only [later, rebuilt]
    exact ⟨queue_armed, by decide, trivial, queue, twice⟩

end Archive
end TurnScript
