import TurnScript.Proofs.Script.Reports
import TurnScript.Proofs.Store.Copies

/-!
# Adopting what is imported

The actions that are read from an imported text get fresh ids, the places they take in the queue as
their orders, and links that lead where they led within the text. Ids are made twice over on the
way: reading gives one to every record that states none, and adopting gives another to every
action. Links are followed by the ids that reading has left, all at once, so a new id is never
taken for an old one, and of several actions under one id the first is meant.
-/

namespace TurnScript

/-! ## Ids that are still to be made -/

namespace IdSupply

/-- None of some ids is still to be made. -/
def Avoids (supply : IdSupply) (ids : List String) : Prop :=
  ∀ number, supply.made < number → idOf number ∉ ids

/-- Ids that are made are numbered on from those that were made before. -/
theorem of_mem_freshFor {α : Type} {supply : IdSupply} {items : List α} {id : String}
    (member : id ∈ (supply.freshFor items).1) :
    ∃ number, supply.made < number ∧ id = idOf number := by
  rw [freshFor_eq] at member
  obtain ⟨number, inRange, rfl⟩ := List.mem_map.mp member
  exact ⟨number, (List.mem_range'_1.mp inRange).1, rfl⟩

/-- An id that is made is no shorter than sixteen digits. -/
theorem sixteen_le_length_idOf (number : Nat) : 16 ≤ (idOf number).length := by
  rw [idOf, String.length_ofList, List.length_append, List.length_replicate]
  omega

/-- Shorter ids are never made. -/
theorem avoids_of_short (supply : IdSupply) {ids : List String}
    (short : ∀ id ∈ ids, id.length < 16) : supply.Avoids ids := by
  intro number _ member
  exact absurd (sixteen_le_length_idOf number) (Nat.not_le.mpr (short _ member))

end IdSupply

/-! ## Ids that are read -/

/-- The id that a record states. -/
def statedId? (record : Json) : Option String :=
  (Json.get? record.asFields "id").bind Json.asText?

/-- The ids that some records state. -/
def statedIds (records : List Json) : List String :=
  records.filterMap statedId?

namespace Action

open Record

/-- What has been read as the id from fields that state one is that id. -/
theorem stated_of_readId {fields : Fields} {fresh id : String} {part : Json}
    (named : Json.get? fields "id" = some part)
    (ok : partOr fields ["id"] fresh readText = .ok id) : statedId? (.obj fields) = some id := by
  simp only [partOr, Record.part, firstNamed, List.findSome?_cons, named, Option.map_some,
    Checked.under_eq_ok] at ok
  unfold readText at ok
  split at ok
  · obtain rfl := Checked.ok.inj ok
    simp only [statedId?, Json.asFields, named, Option.bind_some, Json.asText?]
  · cases ok

/-- The id of an action that has been read from fields is the one that they state, or the fresh one
if they have none. -/
theorem id_of_readFields {fresh : String} {fields : Fields} {a : Action}
    (ok : readFields fresh fields = .ok a) :
    if (Json.get? fields "id").isNone then a.id = fresh
    else statedId? (.obj fields) = some a.id := by
  have checked := (readFields_eq_ok.mp ok).id
  cases named : Json.get? fields "id" with
  | none => simpa [partOr, Record.part, firstNamed, named] using checked.symm
  | some part => exact stated_of_readId named checked

/-- The id of an action that has been read is the one that its record states, or else the next one
to be made. -/
theorem id_of_read {supply after : IdSupply} {record : Json} {a : Action}
    (ok : read supply record = (.ok a, after)) :
    (statedId? record = some a.id ∧ after = supply) ∨
      (a.id = IdSupply.idOf (supply.made + 1) ∧ after.made = supply.made + 1) := by
  obtain ⟨_, fields, rfl, _⟩ := of_read_eq_ok ok
  rw [read, needsId] at ok
  split at ok <;> obtain ⟨passed, rfl⟩ := Prod.mk.inj ok <;> have id := id_of_readFields passed
  · next unnamed =>
    rw [if_pos unnamed] at id
    exact .inr ⟨id, rfl⟩
  · next named =>
    rw [if_neg named] at id
    exact .inl ⟨id, rfl⟩

/-- Reading records one by one reads an action from each. -/
theorem forall₂_of_readUntilFault {supply after : IdSupply} {records : List Json}
    {actions : List Action} (ok : readUntilFault supply records = (.ok actions, after)) :
    List.Forall₂ (fun record a => ∃ before between, read before record = (.ok a, between))
      records actions := by
  induction records generalizing supply actions with
  | nil =>
    obtain rfl := Checked.ok.inj (congrArg Prod.fst ok)
    exact .nil
  | cons record rest inductionHypothesis =>
    obtain ⟨first, _, later, readFirst, readLater, rfl⟩ := readUntilFault_cons_eq_ok ok
    exact .cons ⟨_, _, readFirst⟩ (inductionHypothesis readLater)

/-- The ids of actions that have been read are those that their records state, and such as were made
meanwhile. -/
theorem ids_of_readUntilFault {supply after : IdSupply} {records : List Json}
    {actions : List Action} (ok : readUntilFault supply records = (.ok actions, after)) :
    supply.made ≤ after.made ∧ ∀ a ∈ actions, a.id ∈ statedIds records ∨
      ∃ number, supply.made < number ∧ number ≤ after.made ∧ a.id = IdSupply.idOf number := by
  induction records generalizing supply actions with
  | nil =>
    obtain ⟨actions, rfl⟩ := Prod.mk.inj ok
    obtain rfl := Checked.ok.inj actions
    simp
  | cons record rest inductionHypothesis =>
    obtain ⟨first, between, later, readFirst, readLater, rfl⟩ := readUntilFault_cons_eq_ok ok
    obtain ⟨grown, ids⟩ := inductionHypothesis readLater
    have inRest : ∀ id ∈ statedIds rest, id ∈ statedIds (record :: rest) := fun id member =>
      List.Sublist.subset ((List.sublist_cons_self record rest).filterMap statedId?) member
    have rises : supply.made ≤ between.made := by
      rcases id_of_read readFirst with ⟨_, rfl⟩ | ⟨_, made⟩
      · exact le_rfl
      · omega
    refine ⟨rises.trans grown, List.forall_mem_cons.mpr ⟨?_, fun a member => ?_⟩⟩
    · rcases id_of_read readFirst with ⟨stated, _⟩ | ⟨fresh, made⟩
      · exact .inl (List.mem_filterMap.mpr ⟨record, List.mem_cons_self, stated⟩)
      · exact .inr ⟨supply.made + 1, Nat.lt_succ_self _, made ▸ grown, fresh⟩
    · rcases ids a member with stated | ⟨number, later, known, fresh⟩
      · exact .inl (inRest _ stated)
      · exact .inr ⟨number, rises.trans_lt later, known, fresh⟩

end Action

/-! ## Links that are followed -/

/-- Where a link leads once new actions are in the places of old ones: to the new id of the first
that had the id before. -/
def followed (old new : List Action) (link : Option String) : Option String :=
  (nonempty link).bind fun id =>
    (old.findIdx? (·.id == id)).bind fun place => new[place]?.map (·.id)

/-- Imported actions are those that have been read, in their places, under other ids that are told
apart, with orders from `start` on and their links followed. -/
structure AreAdopted (read : List Action) (start : Nat) (imported : List Action) : Prop where
  length : imported.length = read.length
  distinct : (imported.map (·.id)).Nodup
  place : ∀ (place : Nat) (inside : place < imported.length) (inRead : place < read.length),
    imported[place] =
      { read[place] with
        id := imported[place].id
        order := (start + place : Nat)
        onSuccess := followed read imported read[place].onSuccess
        onFailure := followed read imported read[place].onFailure }

/-- What is found beside a key is what has its place in the other list. -/
theorem find?_zip_eq {keys values : List String} (key : String) :
    ((keys.zip values).find? (·.1 == key)).map (·.2) =
      (keys.findIdx? (· == key)).bind fun place => values[place]? := by
  induction keys generalizing values with
  | nil => rfl
  | cons first rest inductionHypothesis =>
    cases values with
    | nil => cases List.findIdx? (· == key) (first :: rest) <;> simp
    | cons value others =>
      by_cases found : first = key
      · simp [List.findIdx?_cons, found]
      · have later := @inductionHypothesis others
        simpa [List.findIdx?_cons, found, Option.bind_map, Function.comp_def] using later

namespace Archive

variable {actions : List Action} {ids : List String}

theorem ids_adopt (enough : ids.length = actions.length) (start : Nat) :
    (adopt actions ids start).map (·.id) = ids := by
  apply List.ext_getElem
  · simp [length_adopt enough, enough]
  · intro place _ inIds
    simp [adopt]

/-- A renamed link leads where it is followed to. -/
theorem renamed_eq_followed (enough : ids.length = actions.length) (start : Nat)
    (link : Option String) :
    renamed ((actions.map (·.id)).zip ids) link =
      followed actions (adopt actions ids start) link := by
  have newId : ∀ place : Nat, (adopt actions ids start)[place]?.map (·.id) = ids[place]? := by
    intro place
    rw [← List.getElem?_map, ids_adopt enough]
  simp only [renamed, followed, newId, find?_zip_eq, List.findIdx?_map]
  rfl

theorem areAdopted_adopt (enough : ids.length = actions.length) (distinct : ids.Nodup)
    (start : Nat) : AreAdopted actions start (adopt actions ids start) where
  length := length_adopt enough start
  distinct := by rwa [ids_adopt enough]
  place place inside inRead := by
    have inIds : place < ids.length := by rwa [enough]
    rw [getElem_adopt start place inside inRead inIds, renamed_eq_followed enough start,
      renamed_eq_followed enough start]

end Archive

/-! ## Reports on what is imported -/

/-- A link that is followed leads to a new action. -/
theorem mem_of_followed {old new : List Action} {link : Option String} {id : String}
    (leads : followed old new link = some id) : id ∈ new.map (·.id) := by
  obtain ⟨_, _, found⟩ := Option.bind_eq_some_iff.mp leads
  obtain ⟨place, _, there⟩ := Option.bind_eq_some_iff.mp found
  rw [← List.getElem?_map] at there
  exact List.mem_of_getElem? there

theorem eq_of_nonempty {text : Option String} {id : String} (said : nonempty text = some id) :
    text = some id := by
  unfold nonempty at said
  split at said
  · cases said
  · exact said

/-- The links of adopted actions lead to adopted actions. -/
theorem AreAdopted.leads {read imported : List Action} {start : Nat}
    (adopted : AreAdopted read start imported) : ∀ action ∈ imported,
      ∀ slot id, action.link slot = some id → id ∈ imported.map (·.id) := by
  intro action member slot id said
  obtain ⟨place, inside, rfl⟩ := List.getElem_of_mem member
  have same := adopted.place place inside (adopted.length ▸ inside)
  rw [same] at said
  cases slot with
  | onSuccess => exact mem_of_followed (eq_of_nonempty said)
  | onFailure => exact mem_of_followed (eq_of_nonempty said)

/-- Nothing is reported of adopted actions about ids that are carried twice or links that lead
nowhere. -/
theorem AreAdopted.reports_nothing {read imported : List Action} {start : Nat}
    (adopted : AreAdopted read start imported) :
    (Report.ofScript (imported.map Action.stored)).duplicates = [] ∧
      (Report.ofScript (imported.map Action.stored)).dangling = [] := by
  have ids : (imported.map Action.stored).map (·.id) = imported.map (·.id) := by
    rw [List.map_map]
    rfl
  refine ⟨Report.duplicates_of_nodup (ids ▸ adopted.distinct),
    Report.dangling_of_leads fun action member => ?_⟩
  obtain ⟨source, inside, rfl⟩ := List.mem_map.mp member
  rw [ids]
  exact adopted.leads source inside

namespace Archive

variable {a : Archive} {shelves : Shelves}

/-! ## An import that is accepted -/

/-- A write that goes well writes the queue at hand and answers as it was to. -/
theorem of_writing_eq_ok {locked : Bool} {subject : String} {e : Envelope}
    {answer given : StoreAnswer} {supply : IdSupply}
    (ok : (StoreEffect.writing locked subject e answer supply).answer = .ok given) :
    given = answer ∧ (StoreEffect.writing locked subject e answer supply).written = some e := by
  unfold StoreEffect.writing at ok ⊢
  split at ok
  · cases ok
  split at ok
  · cases ok
  · rw [if_neg ‹_›, if_neg ‹_›]
    exact ⟨(Except.ok.inj ok).symm, rfl⟩

/-- An import that goes well has read every record of the text. It puts the actions of these,
adopted, after those that are kept. -/
theorem of_effect_adopt_eq_ok {locked append : Bool} {subject text : String}
    {shelf : Option Envelope} {supply : IdSupply} {answer : StoreAnswer}
    (ok : ((StoreOp.adopt text append).effect locked subject shelf supply).answer = .ok answer) :
    ∃ records read after, importedRecords text = .ok records ∧
      Action.readUntilFault supply records = (.ok read, after) ∧
      let existing := if append then actionsOn shelf else []
      let imported := adopt read (after.freshFor read).1 existing.length
      answer = .many imported ∧
        ((StoreOp.adopt text append).effect locked subject shelf supply).written =
          some (refilled shelf (existing ++ imported)) := by
  simp only [StoreOp.effect] at ok ⊢
  split at ok
  · cases ok
  next records imported =>
  split at ok
  · cases ok
  next read after reading => exact ⟨records, read, after, imported, reading, of_writing_eq_ok ok⟩

/-- What comes of an import that goes well. -/
theorem Holds.of_importQueue_eq_ok (holds : a.Holds shelves) {subject text : String}
    {append : Bool} {imported : List Action} {later : Archive}
    (accepted : a.importQueue subject text append = (.ok imported, later)) :
    ∃ records read after, importedRecords text = .ok records ∧
      Action.readUntilFault a.supply records = (.ok read, after) ∧
      let existing := if append then actionsOn (shelves subject) else []
      imported = adopt read (after.freshFor read).1 existing.length ∧
        later.queue subject = (.ok (existing ++ imported.map Action.stored), later) := by
  have performed := holds.perform subject (.adopt text append)
  have valid : (StoreOp.adopt text append).IsValid := trivial
  have held := holds.perform_valid subject valid
  have told : a.perform subject (.adopt text append) = (.ok (.many imported), later) := by
    rw [Archive.perform, accepted]
    rfl
  rw [told] at performed held
  obtain ⟨records, read, after, inText, reading, adopted, written⟩ :=
    of_effect_adopt_eq_ok (congrArg Prod.fst performed).symm
  obtain rfl := StoreAnswer.many.inj adopted
  refine ⟨records, read, after, inText, reading, rfl, ?_⟩
  have unchanged : (if append then actionsOn (shelves subject) else []).map Action.stored =
      if append then actionsOn (shelves subject) else [] := by
    cases append
    · rfl
    · exact Action.map_stored (holds.isFaithful subject)
  rw [held.queue, Shelves.left_self, StoreEffect.stored, written, Option.map_some, Option.some_or,
    Envelope.stored, refilled, actionsOn, Option.map_some, Option.getD_some, List.map_append,
    unchanged]

/-- The text of an exported queue is accepted if what comes of importing it can be written. -/
theorem Holds.importQueue_eq_ok (holds : a.Holds shelves) (unlocked : a.readOnly = false)
    (subject : String) (append : Bool) (tokenName : Option String) {actions : List Action}
    (kept : ∀ action ∈ actions, action.IsKept) :
    let existing := if append then actionsOn (shelves subject) else []
    let imported := adopt actions (a.supply.freshFor actions).1 existing.length
    (existing ++ imported).all Action.isWritable = true →
      (a.importQueue subject (exportText tokenName actions) append).1 = .ok imported := by
  intro existing imported writable
  have read := Action.readUntilFault_of_isFaithful a.supply fun action member =>
    (kept action member).toIsFaithful
  have whole : (refilled (shelves subject) (existing ++ imported)).isWritable = true := writable
  have answer := congrArg Prod.fst
    (holds.perform subject (.adopt (exportText tokenName actions) append))
  simp only [Archive.perform, answering, Archive.realize, StoreOp.effect,
    importedRecords_exportText tokenName kept, read, StoreEffect.writing] at answer
  rw [whole, unlocked] at answer
  obtain ⟨_, ok, same⟩ := Json.of_map_eq_ok answer
  rw [ok, StoreAnswer.many.inj same]

/-- If no fresh id was known before an import, the ids that it gives are neither known, nor stated
in its records, nor given to them while they were read. -/
theorem not_mem_of_mem_freshFor {supply after : IdSupply} {records : List Json}
    {read : List Action} {known : List String}
    (reading : Action.readUntilFault supply records = (.ok read, after))
    (avoids : supply.Avoids (statedIds records ++ known)) :
    ∀ id ∈ (after.freshFor read).1, id ∉ statedIds records ++ read.map (·.id) ++ known := by
  intro id member
  obtain ⟨grown, readIds⟩ := Action.ids_of_readUntilFault reading
  obtain ⟨number, later, rfl⟩ := IdSupply.of_mem_freshFor member
  have unstated := avoids number (grown.trans_lt later)
  rw [List.mem_append, not_or] at unstated
  have unread : IdSupply.idOf number ∉ read.map (·.id) := by
    intro isRead
    obtain ⟨action, inRead, same⟩ := List.mem_map.mp isRead
    -- Reading makes its ids before adopting does, so the two are numbered apart.
    rcases readIds action inRead with stated | ⟨other, _, earlier, made⟩
    · exact unstated.1 (same ▸ stated)
    · have numbers := IdSupply.idOf_injective (same.symm.trans made)
      omega
  simp only [List.mem_append, not_or]
  exact ⟨⟨unstated.1, unread⟩, unstated.2⟩

/-- Whenever a text is accepted for import, after every history with valid actions, the queue is
from then on what it was before, or nothing if it is replaced, followed by the imported actions.
These are the actions that have been read from the records, one from each and in their order,
adopted: under new ids that are told apart, with orders that go on from the queue before them, and
with links that lead to the new id of the first action that had the old one, if there is one. Data
is stored of them as of every action. The new ids are those of no record and of no action before, if
no fresh id was. After an import that replaces the queue, nothing is reported of it about ids that
are carried twice or links that lead nowhere. -/
theorem imports_are_adopted {a : Archive} (empty : a.rows = some []) {steps : List StoreStep}
    (valid : ∀ step ∈ steps, step.op.IsValid) {subject text : String} {append : Bool}
    {imported : List Action} {later : Archive}
    (accepted : { (a.takeAll steps).2 with readOnly := false }.importQueue subject text append =
      (.ok imported, later)) :
    let final := { (a.takeAll steps).2 with readOnly := false }
    ∃ stored records read after,
      final.queue subject = (.ok stored, final) ∧
        importedRecords text = .ok records ∧
        Action.readUntilFault final.supply records = (.ok read, after) ∧
        List.Forall₂ (fun record action => ∃ before between,
          Action.read before record = (.ok action, between)) records read ∧
        let existing := if append then stored else []
        let queue := existing ++ imported.map Action.stored
        later.queue subject = (.ok queue, later) ∧
          AreAdopted read existing.length imported ∧
          (final.supply.Avoids (statedIds records ++ stored.map (·.id)) →
            ∀ action ∈ imported,
              action.id ∉ statedIds records ++ read.map (·.id) ++ stored.map (·.id)) ∧
          (append = false →
            (Report.ofScript queue).duplicates = [] ∧ (Report.ofScript queue).dangling = []) := by
  intro final
  obtain ⟨shelves, held⟩ := (holds_empty empty).exists_takeAll valid
  have holds : final.Holds shelves := held.congr rfl
  obtain ⟨records, read, after, inText, reading, rfl, queued⟩ := holds.of_importQueue_eq_ok accepted
  have enough : (after.freshFor read).1.length = read.length := after.length_freshFor read
  have adopted := areAdopted_adopt enough (after.nodup_freshFor read)
    (if append then actionsOn (shelves subject) else []).length
  refine ⟨_, records, read, after, holds.queue subject, inText, reading,
    Action.forall₂_of_readUntilFault reading, queued, adopted, fun avoids action member => ?_, ?_⟩
  · have fresh : action.id ∈ (after.freshFor read).1 := by
      rw [← ids_adopt enough]
      exact List.mem_map_of_mem member
    exact not_mem_of_mem_freshFor reading avoids action.id fresh
  · rintro rfl
    exact adopted.reports_nothing

/-- A feint that leads on to the thrust, or to an action that is not there. -/
def feint : Action :=
  { id := "a", kind := .attack, onSuccess := some "b", onFailure := some "bow" }

/-- A thrust that leads back to the feint. -/
def thrust : Action := { id := "b", kind := .attack, onSuccess := some "a", onFailure := some "" }

/-- A riposte under the id of the feint, that leads to that id. -/
def riposte : Action := { id := "a", kind := .attack, order := 7, onSuccess := some "a" }

def phrase : List Action := [feint, thrust, riposte]

theorem isKept_phrase : ∀ action ∈ phrase, action.IsKept := by
  have valid : feint.IsValid ∧ thrust.IsValid ∧ riposte.IsValid :=
    ⟨⟨rfl, rfl, by decide, trivial⟩, ⟨rfl, rfl, by decide, trivial⟩, ⟨rfl, rfl, by decide, trivial⟩⟩
  simp only [phrase, List.forall_mem_cons, List.not_mem_nil, false_implies, implies_true, and_true]
  exact ⟨⟨⟨valid.1, rfl⟩, by decide⟩, ⟨⟨valid.2.1, rfl⟩, by decide⟩, ⟨⟨valid.2.2, rfl⟩, by decide⟩⟩

/-- What the phrase is once it follows the bow and the axe. -/
def adoptedPhrase : List Action :=
  [{ feint with
      id := "0000000000000001", order := 2, onSuccess := some "0000000000000002",
      onFailure := none },
    { thrust with
      id := "0000000000000002", order := 3, onSuccess := some "0000000000000001",
      onFailure := none },
    { riposte with
      id := "0000000000000003", order := 4, onSuccess := some "0000000000000001" }]

/-- The phrase is accepted, and adopted behind the bow and the axe. -/
theorem importQueue_phrase :
    (armed.importQueue "hero" (exportText none phrase) true).1 = .ok adoptedPhrase := by
  have adopted : adopt phrase (armed.supply.freshFor phrase).1 [bow, axe].length =
      adoptedPhrase := rfl
  have accepted := holds_armed.importQueue_eq_ok rfl "hero" true none isKept_phrase
  rw [Function.update_self] at accepted
  simp only [if_true, actionsOn, Option.map_some, Option.getD_some, adopted] at accepted
  exact accepted (by decide)

theorem imports_are_adopted_phrase :
    ∃ later, armed.importQueue "hero" (exportText none phrase) true = (.ok adoptedPhrase, later) ∧
      later.queue "hero" = (.ok ([bow, axe] ++ adoptedPhrase), later) ∧
      armed.supply.Avoids ["a", "b", "a", "bow", "axe"] ∧
      ∀ action ∈ adoptedPhrase,
        action.id ∉ ["a", "b", "a"] ++ ["a", "b", "a"] ++ ["bow", "axe"] := by
  rcases imports : armed.importQueue "hero" (exportText none phrase) true with ⟨result, later⟩
  obtain rfl : result = .ok adoptedPhrase :=
    (congrArg Prod.fst imports).symm.trans importQueue_phrase
  obtain ⟨stored, records, read, _, before, inText, reading, _, queued, _, fresh, _⟩ :=
    imports_are_adopted (a := {}) rfl isValid_arming imports
  obtain rfl : stored = [bow, axe] :=
    Except.ok.inj (congrArg Prod.fst (before.symm.trans queue_armed))
  obtain rfl : records = phrase.map Action.toRecord :=
    Except.ok.inj (inText.symm.trans (importedRecords_exportText none isKept_phrase))
  obtain rfl : phrase = read := by
    have known := Action.readUntilFault_of_isFaithful armed.supply fun action member =>
      (isKept_phrase action member).toIsFaithful
    exact Record.Checked.ok.inj (congrArg Prod.fst (known.symm.trans reading))
  have short : ∀ id ∈ ["a", "b", "a", "bow", "axe"], id.length < 16 := by decide
  have avoids := armed.supply.avoids_of_short short
  exact ⟨later, rfl, queued, avoids, fresh avoids⟩

end Archive
end TurnScript
