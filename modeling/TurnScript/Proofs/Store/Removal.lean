import TurnScript.Proofs.Store.Places

/-!
# Removing from a queue

A removal numbers the actions that it leaves by their places in the stored list, so from then on
they run as they are stored. Before, they ran by the numbers that they had. The two orders are the
same where these numbers do not decrease along the list; elsewhere a removal changes the order in
which the other actions run.
-/

namespace TurnScript

/-! ## Actions without their numbers -/

/-- Some actions, with everything that they have but their order numbers. -/
def unnumbered (actions : List Action) : List Action :=
  actions.map fun action => { action with order := 0 }

@[simp] theorem unnumbered_renumber (actions : List Action) :
    unnumbered (renumber actions) = unnumbered actions := by
  apply List.ext_getElem <;> simp [unnumbered, renumber]

@[simp] theorem ids_unnumbered (actions : List Action) :
    (unnumbered actions).map (·.id) = actions.map (·.id) := by
  simp [unnumbered, Function.comp_def]

/-- What is left out of a list is left out of its execution order. -/
theorem sortedByOrder_filter (keeps : Action → Bool) (actions : List Action) :
    sortedByOrder (actions.filter keeps) = (sortedByOrder actions).filter keeps := by
  refine sortedByOrder_eq ((pairwise_sortedByOrder actions).filter keeps) fun order => ?_
  have same := congrArg (List.filter keeps) (withOrder_sortedByOrder order actions)
  rwa [withOrder, withOrder, List.filter_comm, List.filter_comm keeps] at same

/-- Two lists of the same actions with the same row of ids are the same if no id is there twice. -/
theorem eq_of_perm_of_ids {actions others : List Action} (same : others.Perm actions)
    (ids : others.map (·.id) = actions.map (·.id)) (distinct : (actions.map (·.id)).Nodup) :
    others = actions := by
  refine List.ext_getElem same.length_eq fun place inOthers inActions => ?_
  have id : others[place].id = actions[place].id := by
    simpa [inOthers, inActions] using congrArg (·[place]?) ids
  exact List.inj_on_of_nodup_map distinct (same.mem_iff.mp (List.getElem_mem inOthers))
    (List.getElem_mem inActions) id

/-- Actions with different ids that are in execution order but for their numbers are in execution
order. -/
theorem isRising_of_unnumbered {actions : List Action} (distinct : (actions.map (·.id)).Nodup)
    (same : unnumbered (sortedByOrder actions) = unnumbered actions) : IsRising actions := by
  have ids : (sortedByOrder actions).map (·.id) = actions.map (·.id) := by
    rw [← ids_unnumbered, same, ids_unnumbered]
  have sorted := eq_of_perm_of_ids (sortedByOrder_perm actions) ids distinct
  have rising := pairwise_sortedByOrder actions
  rwa [sorted] at rising

namespace Archive

/-- Actions that can be written can be written numbered anew if there is room for the last place. -/
theorem all_isWritable_renumber {actions : List Action}
    (writable : ∀ action ∈ actions, action.isWritable = true) :
    (renumber actions).all Action.isWritable = true ↔ actions.length ≤ placeLimit := by
  have length : (renumber actions).length = actions.length := by simp [renumber]
  rw [← length]
  refine all_isWritable_iff fun place inside => ?_
  have old : actions[place].isWritable = true := writable _ (List.getElem_mem (length ▸ inside))
  simpa [renumber] using isWritable_placed old place

variable {a : Archive} {shelves : Shelves}

/-! ## A removal -/

/-- Nothing is left out of some actions exactly if none of them has the id. -/
theorem length_filter_eq_iff {actions : List Action} {id : String} :
    (actions.filter (·.id != id)).length = actions.length ↔ actions.any (·.id == id) = false := by
  rw [List.length_filter_eq_length_iff]
  simp

/-- The removal of an id that no action has does nothing. -/
theorem Holds.removeAction_unknown (holds : a.Holds shelves) {subject id : String}
    (unknown : (actionsOn (shelves subject)).any (·.id == id) = false) :
    a.removeAction subject id = (.ok false, a) := by
  simp only [Archive.removeAction, holds.queue, length_filter_eq_iff.mpr unknown, if_true]

/-- The removal of an id that some action has replaces the queue by the other actions, numbered
anew. -/
theorem Holds.removeAction_known (holds : a.Holds shelves) {subject id : String}
    (known : (actionsOn (shelves subject)).any (·.id == id) = true) :
    a.removeAction subject id = a.setQueueThen subject
      (renumber ((actionsOn (shelves subject)).filter (·.id != id))) true := by
  have fewer : ¬ ((actionsOn (shelves subject)).filter (·.id != id)).length =
      (actionsOn (shelves subject)).length := by
    rw [length_filter_eq_iff, known]
    decide
  simp only [Archive.removeAction, holds.queue, fewer, if_false]

/-- What comes of removing an id that some action has: nothing if there is no room for the last
place or the table is locked, else the other actions, numbered anew. -/
theorem Holds.removeAction_cases (holds : a.Holds shelves) {subject id : String}
    (known : (actionsOn (shelves subject)).any (·.id == id) = true) :
    let rest := (actionsOn (shelves subject)).filter (·.id != id)
    ((a.readOnly = true ∨ placeLimit < rest.length) ∧
        ∃ error, a.removeAction subject id = (.error error, a)) ∨
      (a.readOnly = false ∧ rest.length ≤ placeLimit ∧
        ∃ later, a.removeAction subject id = (.ok true, later) ∧
          later.Holds (Function.update shelves subject
            (some (refilled (shelves subject) (renumber rest))))) := by
  intro rest
  have kept : ∀ action ∈ rest, action.IsKept := fun action member =>
    holds.isKept subject action (List.mem_of_mem_filter member)
  have faithful : ∀ action ∈ renumber rest, action.IsFaithful :=
    forall_renumber restsOnContent_isFaithful fun action member => (kept action member).toIsFaithful
  have room := all_isWritable_renumber fun action member => (kept action member).writable
  rw [holds.removeAction_known known, Archive.setQueueThen]
  rcases holds.setQueue_room subject faithful room with
    ⟨blocked, error, same⟩ | ⟨unlocked, fits, later, same, holdsLater⟩
  · exact .inl ⟨blocked, error, by rw [same]; rfl⟩
  · exact .inr ⟨unlocked, fits, later, by rw [same]; rfl, holdsLater⟩

/-- After every history with valid actions, a removal fails only for an id that some action has,
where the table is locked or there is no room for the last place, and then it leaves every row.
Else it answers whether some action has the id, and if so the other actions run as they are stored,
numbered by their places. That is the order in which they ran before if their numbers did not
decrease along the stored list, and where no id is there twice, only then. -/
theorem rest_runs_as_stored {a : Archive} (empty : a.rows = some []) {steps : List StoreStep}
    (valid : ∀ step ∈ steps, step.op.IsValid) (locked : Bool) (subject id : String) :
    let final := { (a.takeAll steps).2 with readOnly := locked }
    let result := (final.removeAction subject id).1
    let later := (final.removeAction subject id).2
    ∃ stored, final.queue subject = (.ok stored, final) ∧
      final.sortedQueue subject = (.ok (sortedByOrder stored), final) ∧
      let known := stored.any (·.id == id)
      let rest := stored.filter (·.id != id)
      ((∃ error, result = .error error) ↔
          known = true ∧ (locked = true ∨ placeLimit < rest.length)) ∧
        (∀ error, result = .error error → later.rows = final.rows) ∧
        ∀ there, result = .ok there → there = known ∧
          ∃ sorted, later.sortedQueue subject = (.ok sorted, later) ∧
            (known = true → sorted = renumber rest) ∧
            (known = false → sorted = sortedByOrder stored) ∧
            let others := (sortedByOrder stored).filter (·.id != id)
            (known = false ∨ IsRising rest → unnumbered sorted = unnumbered others) ∧
              ((rest.map (·.id)).Nodup → unnumbered sorted = unnumbered others →
                known = false ∨ IsRising rest) := by
  intro final result later
  obtain ⟨shelves, held⟩ := (holds_empty empty).exists_takeAll valid
  have holds : final.Holds shelves := held.congr rfl
  refine ⟨_, holds.queue subject, holds.sortedQueue subject, ?_⟩
  intro known rest
  rcases Bool.eq_false_or_eq_true known with there | there
  · rcases holds.removeAction_cases there with
      ⟨blocked, error, same⟩ | ⟨unlocked, room, left, same, holdsLater⟩
    · simp only [result, later, same, there]
      refine ⟨by simpa using blocked, by simp, ?_⟩
      rintro _ ⟨⟩
    · have inOrder : left.sortedQueue subject = (.ok (renumber rest), left) := by
        rw [holdsLater.sortedQueue, Function.update_self, actionsOn_refilled,
          (countsFrom_renumber rest).sortedByOrder_eq]
      have free : ¬ (locked = true ∨ placeLimit < rest.length) := by
        rintro (isLocked | long)
        · exact absurd (isLocked.symm.trans unlocked) (by decide)
        · exact absurd room (Nat.not_le.mpr long)
      simp only [result, later, same, there]
      refine ⟨by simpa using free, by simp, ?_⟩
      rintro _ ⟨⟩
      refine ⟨rfl, _, inOrder, fun _ => rfl, nofun, ?_⟩
      rw [← sortedByOrder_filter, unnumbered_renumber]
      constructor
      · rintro (⟨⟨⟩⟩ | rising)
        rw [sortedByOrder_of_pairwise rising]
      · intro distinct alike
        exact .inr (isRising_of_unnumbered distinct alike.symm)
  · have same : final.removeAction subject id = (.ok false, final) :=
      holds.removeAction_unknown there
    have all : (sortedByOrder (actionsOn (shelves subject))).filter (·.id != id) =
        sortedByOrder (actionsOn (shelves subject)) := by
      rw [← sortedByOrder_filter]
      congr 1
      simpa [known] using there
    simp only [result, later, same, there]
    refine ⟨by simp, by simp, ?_⟩
    rintro _ ⟨⟩
    refine ⟨rfl, _, holds.sortedQueue subject, nofun, fun _ => rfl, ?_⟩
    rw [all]
    exact ⟨fun _ => rfl, fun _ _ => .inl trivial⟩

/-- The queue of the hero is set to actions that do not stand in the order in which they run. -/
def packing : List StoreStep :=
  [⟨"hero", .replace [bow, axe, finale], false⟩]

def packed : Archive :=
  { (({} : Archive).takeAll packing).2 with readOnly := false }

theorem isValid_packing : ∀ step ∈ packing, step.op.IsValid := by
  have valid : bow.IsValid ∧ axe.IsValid ∧ finale.IsValid :=
    ⟨⟨rfl, rfl, by decide, trivial⟩, ⟨rfl, rfl, by decide, trivial⟩, ⟨rfl, rfl, by decide, trivial⟩⟩
  simpa [packing, StoreOp.IsValid] using valid

/-- What the shelves are after that. -/
def packedShelves : Shelves :=
  Function.update (fun _ => none) "hero" (some { actions := [bow, axe, finale] })

theorem holds_packed : packed.Holds packedShelves := by
  have holds : ({} : Archive).Holds fun _ => none := holds_empty rfl
  have taken := holds.take_valid
    (isValid_packing ⟨"hero", .replace [bow, axe, finale], false⟩ (by simp [packing]))
  exact taken.congr rfl

@[simp] theorem actionsOn_packed : actionsOn (packedShelves "hero") = [bow, axe, finale] := by
  rw [packedShelves, Function.update_self]
  rfl

theorem queue_packed : packed.queue "hero" = (.ok [bow, axe, finale], packed) := by
  rw [holds_packed.queue, actionsOn_packed]

/-- Sorted by their orders, the axe comes before the bow. -/
theorem sortedByOrder_pack : sortedByOrder [bow, axe, finale] = [axe, bow, finale] := by
  simp [sortedByOrder, List.mergeSort, List.MergeSort.Internal.splitInTwo, List.splitAt,
    List.splitAt.go, bow, axe, finale]

/-- Without the bow, the axe and the finale run as before. -/
theorem rest_runs_as_stored_unstrung :
    let later := (packed.removeAction "hero" "bow").2
    (packed.removeAction "hero" "bow").1 = .ok true ∧
      later.sortedQueue "hero" = (.ok [axe, { finale with order := 1 }], later) := by
  intro later
  obtain ⟨stored, queue, -, fails, -, runs⟩ :=
    rest_runs_as_stored (a := {}) rfl isValid_packing false "hero" "bow"
  obtain rfl : stored = [bow, axe, finale] :=
    Except.ok.inj (congrArg Prod.fst (queue.symm.trans queue_packed))
  cases result : (packed.removeAction "hero" "bow").1 with
  | error error =>
    obtain ⟨-, locked | long⟩ := fails.mp ⟨error, result⟩
    · exact absurd locked (by decide)
    · exact absurd (ten_le_placeLimit.trans long.le) (by decide)
  | ok there =>
    obtain ⟨rfl, sorted, inOrder, renumbered, -⟩ := runs there result
    obtain rfl : sorted = [axe, { finale with order := 1 }] := renumbered rfl
    exact ⟨rfl, inOrder⟩

/-- Without the finale, the bow and the axe change places. -/
theorem removal_turns_rest_around :
    let later := (packed.removeAction "hero" "finale").2
    packed.sortedQueue "hero" = (.ok [axe, bow, finale], packed) ∧
      (packed.removeAction "hero" "finale").1 = .ok true ∧
      later.sortedQueue "hero" =
        (.ok [{ bow with order := 0 }, { axe with order := 1 }], later) ∧
      unnumbered [{ bow with order := 0 }, { axe with order := 1 }] ≠
        unnumbered ([axe, bow, finale].filter (·.id != "finale")) := by
  intro later
  have before : packed.sortedQueue "hero" = (.ok [axe, bow, finale], packed) := by
    rw [holds_packed.sortedQueue, actionsOn_packed, sortedByOrder_pack]
  have known : (actionsOn (packedShelves "hero")).any (·.id == "finale") = true := by
    rw [actionsOn_packed]
    decide
  have turned : unnumbered [{ bow with order := 0 }, { axe with order := 1 }] ≠
      unnumbered ([axe, bow, finale].filter (·.id != "finale")) := by
    decide
  rcases holds_packed.removeAction_cases known with
    ⟨locked | long, _⟩ | ⟨-, -, left, removed, holds⟩
  · exact absurd locked (by decide)
  · rw [actionsOn_packed] at long
    exact absurd (ten_le_placeLimit.trans long.le) (by decide)
  · have after : left.sortedQueue "hero" =
        (.ok [{ bow with order := 0 }, { axe with order := 1 }], left) := by
      rw [holds.sortedQueue, Function.update_self, actionsOn_refilled,
        (countsFrom_renumber _).sortedByOrder_eq, actionsOn_packed]
      rfl
    simp only [later, removed]
    exact ⟨before, trivial, after, turned⟩

end Archive
end TurnScript
