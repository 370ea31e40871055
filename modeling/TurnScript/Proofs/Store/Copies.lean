import Mathlib.GroupTheory.GroupAction.MultipleTransitivity
import TurnScript.Proofs.Session.Mirroring
import TurnScript.Proofs.Store.HandingOn

/-!
# Copies of queues

An imported queue is a copy of the exported one: its actions have fresh ids, and their links follow
the ids or are cleared if they led nowhere. Fresh ids are told apart, so where the old ones were
too, a permutation of all ids turns the queue into its copy. Since runs do not depend on ids, the
copy is performed as the queue is.
-/

namespace TurnScript

/-! ## Fresh ids -/

namespace IdSupply

/-- The value of a hexadecimal digit. -/
def hexValue (c : Char) : Nat :=
  if c.toNat < 58 then c.toNat - 48 else c.toNat - 87

/-- The number that hexadecimal digits write. -/
def hexNumber (digits : List Char) : Nat :=
  digits.foldl (fun number c => 16 * number + hexValue c) 0

theorem hexValue_digitChar {digit : Nat} (small : digit < 16) :
    hexValue digit.digitChar = digit := by
  interval_cases digit <;> rfl

theorem hexNumber_toDigits (number : Nat) : hexNumber (Nat.toDigits 16 number) = number := by
  induction number using Nat.strong_induction_on with
  | h number inductionHypothesis =>
    by_cases small : number < 16
    · rw [Nat.toDigits_of_lt_base small]
      simp [hexNumber, hexValue_digitChar small]
    · have large : 16 ≤ number := Nat.not_lt.mp small
      have front := inductionHypothesis (number / 16) (by omega)
      have last : number % 16 < 16 := Nat.mod_lt _ (by decide)
      rw [Nat.toDigits_of_base_le (by decide) large, hexNumber, List.foldl_append]
      rw [hexNumber] at front
      rw [front]
      simp only [List.foldl_cons, List.foldl_nil, hexValue_digitChar last]
      omega

theorem hexNumber_replicate (count : Nat) (digits : List Char) :
    hexNumber (List.replicate count '0' ++ digits) = hexNumber digits := by
  induction count with
  | zero => rfl
  | succ count inductionHypothesis =>
    rw [List.replicate_succ, List.cons_append]
    exact inductionHypothesis

/-- Different numbers make different ids. -/
theorem idOf_injective : Function.Injective idOf := by
  have read : ∀ number, hexNumber (idOf number).toList = number := by
    intro number
    rw [idOf, String.toList_ofList, hexNumber_replicate, hexNumber_toDigits]
  intro number other same
  rw [← read number, same, read other]

/-- An id that is made says something. -/
theorem nonempty_idOf (number : Nat) : nonempty (some (idOf number)) = some (idOf number) := by
  have written : idOf number ≠ "" := by
    intro empty
    have digits := congrArg String.toList empty
    simp [idOf, Nat.toDigits_ne_nil] at digits
  unfold nonempty
  split
  · next text empty => exact absurd (Option.some.inj empty) written
  · rfl

theorem freshFor_eq {α : Type} (supply : IdSupply) (items : List α) :
    (supply.freshFor items).1 = (List.range' (supply.made + 1) items.length).map idOf := by
  induction items generalizing supply with
  | nil => rfl
  | cons item rest inductionHypothesis =>
    simp only [freshFor, fresh, inductionHypothesis, List.length_cons, List.range'_succ,
      List.map_cons]

/-- Ids that are made together are told apart. -/
theorem nodup_freshFor {α : Type} (supply : IdSupply) (items : List α) :
    (supply.freshFor items).1.Nodup := by
  rw [freshFor_eq]
  exact List.Nodup.map idOf_injective List.nodup_range'

theorem nonempty_of_mem_freshFor {α : Type} {supply : IdSupply} {items : List α} {id : String}
    (member : id ∈ (supply.freshFor items).1) : nonempty (some id) = some id := by
  rw [freshFor_eq] at member
  obtain ⟨number, _, rfl⟩ := List.mem_map.mp member
  exact nonempty_idOf number

end IdSupply

/-! ## A copy is a renaming -/

/-- Ids that are told apart are permuted into any others that are. -/
theorem exists_perm_map {ids others : List String} (distinct : ids.Nodup)
    (othersDistinct : others.Nodup) (enough : others.length = ids.length) :
    ∃ name : Equiv.Perm String, others = ids.map name := by
  let places : Fin ids.length ↪ String := ⟨ids.get, List.nodup_iff_injective_get.mp distinct⟩
  let goals : Fin ids.length ↪ String :=
    ⟨fun place => others.get (place.cast enough.symm),
      (List.nodup_iff_injective_get.mp othersDistinct).comp (Fin.cast_injective _)⟩
  have transitive := Equiv.Perm.isMultiplyPretransitive String ids.length
  obtain ⟨name, moved⟩ := transitive.exists_smul_eq places goals
  refine ⟨name, List.ext_getElem (by simp [enough]) fun place inOthers inIds => ?_⟩
  have inside : place < ids.length := by simpa using inIds
  have reached := congrArg (fun goal => goal ⟨place, inside⟩) moved
  simpa [places, goals] using reached.symm

namespace Archive

variable {actions : List Action} {ids : List String}

/-- The renaming by which actions become the copies that are adopted under new ids. -/
def adopting (actions : List Action) (name : Equiv.Perm String) : Renaming where
  name := name
  place action := ((actions.map (·.id)).idxOf action.id : Nat)
  link := renamed ((actions.map (·.id)).zip ((actions.map (·.id)).map name))

/-- Adopted actions are the old ones, renamed. -/
theorem adopt_eq_map (distinct : (actions.map (·.id)).Nodup) (name : Equiv.Perm String) :
    adopt actions ((actions.map (·.id)).map name) 0 =
      actions.map (adopting actions name).action := by
  apply List.ext_getElem
  · simp [adopt]
  · intro place inside inCopies
    have inActions : place < actions.length := by simpa using inCopies
    have atPlace : (actions.map (·.id)).idxOf actions[place].id = place := by
      have found := distinct.idxOf_getElem place (by simpa using inActions)
      simpa using found
    rw [getElem_adopt 0 place inside inActions (by simpa using inActions)]
    simp [Renaming.action, adopting, atPlace]

/-- A renamed link leads to the new id of the action that the link led to. -/
theorem renamed_zip_map (name : Equiv.Perm String) (link : Option String) :
    renamed ((actions.map (·.id)).zip ((actions.map (·.id)).map name)) link =
      ((nonempty link).bind (findAction? actions)).map fun action => name action.id := by
  rw [renamed]
  cases nonempty link with
  | none => rfl
  | some id =>
    simp only [Option.bind_some, findAction?]
    induction actions with
    | nil => rfl
    | cons action rest inductionHypothesis =>
      by_cases found : action.id = id
      · simp [found]
      · simpa [found] using inductionHypothesis

/-- The links of adopted actions lead where they led before. -/
theorem suits_adopting {name : Equiv.Perm String}
    (named : ∀ action ∈ actions, nonempty (some (name action.id)) = some (name action.id)) :
    (adopting actions name).Suits actions := by
  intro link
  have leads : (adopting actions name).link link =
      ((nonempty link).bind (findAction? actions)).map fun action => name action.id :=
    renamed_zip_map name link
  rw [leads]
  cases target : (nonempty link).bind (findAction? actions) with
  | none => rfl
  | some action =>
    obtain ⟨id, _, found⟩ := Option.bind_eq_some_iff.mp target
    have member : action ∈ actions := List.mem_of_find?_eq_some found
    have carried : action.id = id := by simpa using List.find?_some found
    rw [Option.map_some, named action member, Option.bind_some, Option.map_some, findAction?,
      List.find?_map]
    have same : ((fun copy : Action => copy.id == name action.id) ∘
        (adopting actions name).action) = fun other => other.id == id := by
      funext other
      simp [Renaming.action, adopting, carried]
    rw [same, show actions.find? (fun other => other.id == id) = some action from found]
    rfl

/-- What comes of importing an exported queue is the queue, renamed by a renaming that suits it. -/
theorem exists_renaming_handedOn (a : Archive) (distinct : (actions.map (·.id)).Nodup) :
    ∃ π : Renaming, a.handedOn actions = actions.map π.action ∧ π.Suits actions := by
  obtain ⟨name, fresh⟩ := exists_perm_map distinct (a.supply.nodup_freshFor actions)
    ((a.supply.length_freshFor actions).trans (by simp))
  refine ⟨adopting actions name, ?_, suits_adopting fun action member => ?_⟩
  · rw [handedOn, fresh]
    exact adopt_eq_map distinct name
  · have made : name action.id ∈ (a.supply.freshFor actions).1 := by
      rw [fresh]
      exact List.mem_map_of_mem (List.mem_map_of_mem member)
    exact IdSupply.nonempty_of_mem_freshFor made

/-! ## Copies are performed alike -/

/-- After every history with valid actions, a queue whose ids are told apart and whose orders do
not decrease can be exported, and importing its text, unless there are more actions than places
that can be written, makes a copy: the same actions under a renaming. In every session, for every
token and with whatever happens meanwhile, the copy is performed as the queue is: with the same
dispatches and data, verdicts, outcomes and counts, the same changes to the table, and a ledger
that differs in the ids alone. -/
theorem copies_are_performed_alike {a : Archive} (empty : a.rows = some [])
    {steps : List StoreStep} (valid : ∀ step ∈ steps, step.op.IsValid) {subject : String}
    {stored : List Action}
    (queued : ((a.takeAll steps).2.queue subject).1 = .ok stored)
    (distinct : (stored.map (·.id)).Nodup)
    (rising : stored.Pairwise fun a b => a.order ≤ b.order)
    (other : String) (tokenName : Option String) :
    let final := { (a.takeAll steps).2 with readOnly := false }
    ∃ text result later,
      final.exportQueue subject tokenName = (.ok text, final) ∧
        final.importQueue other text false = (result, later) ∧
        ((placeLimit < stored.length ∧ result = .error .unwritable) ∨
          ∃ π : Renaming, result = .ok (stored.map π.action) ∧
            later.queue other = (.ok (stored.map π.action), later) ∧
            later.sortedQueue other = (.ok (stored.map π.action), later) ∧
            (other ≠ subject → later.queue subject = (.ok stored, later)) ∧
            ∀ (s : Session) (token : TokenRef) (interludes : List Interlude),
              Option.Rel (Performance.Mirrors π s.trace) (s.perform? token stored interludes)
                (s.perform? token (stored.map π.action) interludes)) := by
  intro final
  obtain ⟨shelves, held⟩ := (holds_empty empty).exists_takeAll valid
  have holds : final.Holds shelves := held.congr rfl
  obtain rfl : actionsOn (shelves subject) = stored :=
    Except.ok.inj ((congrArg Prod.fst (held.queue subject)).symm.trans queued)
  rcases imports : final.importQueue other (exportText tokenName (actionsOn (shelves subject)))
    false with ⟨result, later⟩
  refine ⟨_, result, later, holds.exportQueue subject tokenName, imports, ?_⟩
  rcases holds.importQueue rfl other tokenName (holds.isKept subject) imports with
    failed | ⟨imported, holdsLater⟩
  · exact .inl failed
  · obtain ⟨π, copied, suits⟩ := exists_renaming_handedOn final distinct
    have renamedRising : ((actionsOn (shelves subject)).map π.action).Pairwise
        fun a b => a.order ≤ b.order := copied ▸ pairwise_adopt 0
    refine .inr ⟨π, ?_, ?_, ?_, fun elsewhere => ?_, fun s token interludes => ?_⟩
    · rw [imported, copied]
    · rw [holdsLater.queue, Function.update_self, actionsOn_refilled, copied]
    · rw [holdsLater.sortedQueue, Function.update_self, actionsOn_refilled,
        sortedByOrder_handedOn, copied]
    · rw [holdsLater.queue, Function.update_of_ne (Ne.symm elsewhere)]
    · exact s.mirrors_perform? token suits rising renamedRising interludes

/-- A lunge that leads aside to the parry once it has hit. -/
def lunge : Action := { id := "lunge", kind := .attack, onSuccess := some "parry" }

/-- A parry that leads to an action that is no longer there. -/
def parry : Action := { id := "parry", kind := .reaction, order := 1, onFailure := some "retreat" }

/-- The queue of the hero is set to the lunge and the parry. -/
def drill : List StoreStep :=
  [⟨"hero", .replace [lunge, parry], false⟩]

theorem isValid_drill : ∀ step ∈ drill, step.op.IsValid := by
  have valid : lunge.IsValid ∧ parry.IsValid :=
    ⟨⟨rfl, rfl, by decide, trivial⟩, ⟨rfl, rfl, by decide, trivial⟩⟩
  simp only [drill, List.forall_mem_cons, List.not_mem_nil, false_implies, implies_true,
    and_true, StoreOp.IsValid]
  exact valid

theorem queue_drill : (({} : Archive).takeAll drill).2.queue "hero" =
    (.ok [lunge, parry], (({} : Archive).takeAll drill).2) := by
  have holds : ({} : Archive).Holds fun _ => none := holds_empty rfl
  have taken := holds.take_valid
    (isValid_drill ⟨"hero", .replace [lunge, parry], false⟩ (by simp [drill]))
  have queue := (taken.congr rfl : (({} : Archive).takeAll drill).2.Holds _).queue "hero"
  exact queue

theorem copies_are_performed_alike_drill :
    let final := { (({} : Archive).takeAll drill).2 with readOnly := false }
    ∃ text later π, final.exportQueue "hero" none = (.ok text, final) ∧
      final.importQueue "rogue" text false =
        (.ok ([lunge, parry].map (Renaming.action π)), later) ∧
      later.queue "hero" = (.ok [lunge, parry], later) ∧
      (({} : Session).perform? 0 [lunge, parry] []).isSome ∧
      Option.Rel (Performance.Mirrors π []) (({} : Session).perform? 0 [lunge, parry] [])
        (({} : Session).perform? 0 ([lunge, parry].map π.action) []) := by
  intro final
  obtain ⟨text, result, later, exported, imported, outcome⟩ :=
    copies_are_performed_alike (a := {}) rfl isValid_drill (congrArg Prod.fst queue_drill)
      (by decide) (by simp [lunge, parry]) "rogue" none
  rcases outcome with ⟨long, _⟩ | ⟨π, rfl, _, _, kept, alike⟩
  · exact absurd (ten_le_placeLimit.trans long.le) (by decide)
  · exact ⟨text, later, π, exported, imported, kept (by decide), rfl, alike {} 0 []⟩

end Archive
end TurnScript
