import TurnScript.Proofs.Store.Effects

/-!
# The archive as a map of queues

The actions of a queue are kept when they are valid: the names in them are known where they can be
and their data is proper. They are kept as they are when no float in their data is infinite or no
number, for those are stored as null. A text that is imported brings valid actions only, whatever
it says.

So while operations are given clean actions, a whole history on an archive comes to what it comes
to on shelves: each operation changes the shelf of its subject or none.
-/

namespace TurnScript

/-! ## What an operation may be given -/

/-- The actions that an operation is given are valid. Only what is named as data matters in an
edit, and nothing in a text. -/
def StoreOp.IsValid : StoreOp → Prop
  | replace actions => ∀ action ∈ actions, action.IsValid
  | add action => action.IsValid
  | edit _ updates => ∀ name value, (name, value) ∈ updates → name ∈ ["data", "payload"] →
      value.IsProper
  | remove _ | reorder _ | duplicate _ | clear | enable _ | adopt _ _ => True

/-- The actions that an operation is given are valid, and no float in their data is infinite or no
number. Only what is named as data matters in an edit and in the records of a text. -/
def StoreOp.IsClean : StoreOp → Prop
  | replace actions => ∀ action ∈ actions, action.IsValid ∧ action.IsFinite
  | add action => action.IsValid ∧ action.IsFinite
  | edit _ updates => ∀ name value, (name, value) ∈ updates → name ∈ ["data", "payload"] →
      value.IsProper ∧ value.IsFinite
  | adopt text _ => ∀ records, Archive.importedRecords text = .ok records →
      ∀ record ∈ records, ∀ name value,
        Record.firstNamed record.asFields ["data", "payload"] = some (name, value) → value.IsFinite
  | remove _ | reorder _ | duplicate _ | clear | enable _ => True

theorem restsOnContent_isValid : RestsOnContent Action.IsValid := by
  rintro a b kind condition data ⟨knownKind, knownCondition, proper⟩
  exact ⟨by rw [kind, knownKind], by rw [condition, knownCondition], by rw [data]; exact proper⟩

theorem restsOnContent_isFaithful : RestsOnContent Action.IsFaithful := by
  rintro a b kind condition data ⟨valid, stored⟩
  have same : Json.storableFields b.data = b.data := by
    rw [data]
    exact congrArg Action.data stored
  exact ⟨restsOnContent_isValid a b kind condition data valid, by rw [Action.stored, same]⟩

/-- An entry of updated fields is an update or was there before. -/
theorem mem_of_mem_updated {updates fields : Fields} {entry : String × Json}
    (member : entry ∈ updates.foldl (fun fields (name, value) => Json.put fields name value) fields) :
    entry ∈ updates ∨ entry ∈ fields := by
  induction updates generalizing fields with
  | nil => exact .inr member
  | cons update rest inductionHypothesis =>
    obtain ⟨name, value⟩ := update
    rcases inductionHypothesis member with later | before
    · exact .inl (List.mem_cons_of_mem _ later)
    · rcases Ordered.mem_put before with rfl | old
      · exact .inl List.mem_cons_self
      · exact .inr old

/-- What an edited action is read from as its data is an update of it, or its old data. -/
theorem data_of_edit {action : Action} {updates : Fields} {name : String} {part : Json}
    (named : Record.firstNamed (updates.foldl (fun fields (name, value) => Json.put fields name value)
      action.parts) ["data", "payload"] = some (name, part)) :
    (name, part) ∈ updates ∧ name ∈ ["data", "payload"] ∨ part = .obj action.data := by
  obtain ⟨isData, member⟩ := mem_of_firstNamed named
  rcases mem_of_mem_updated member with update | old
  · exact .inl ⟨update, isData⟩
  · right
    simp only [Action.parts, List.mem_cons, Prod.mk.injEq, List.not_mem_nil, or_false] at old
    simp only [List.mem_cons, List.not_mem_nil, or_false] at isData
    rcases isData with rfl | rfl
    · simp at old
    · simpa using old

/-- Editing a valid action gives a valid one if what it is given as data is proper. -/
theorem isValid_of_edit {supply after : IdSupply} {action edited : Action} {id : String}
    {updates : Fields} (valid : action.IsValid) (given : (StoreOp.edit id updates).IsValid)
    (edit : Archive.editAction supply action updates = (.ok edited, after)) : edited.IsValid := by
  obtain ⟨fresh, fields, same, read⟩ := Action.of_read_eq_ok edit
  obtain rfl := Json.obj.inj same
  refine Action.isValid_of_readFields (fun name part named => ?_) read
  rcases data_of_edit named with ⟨update, isData⟩ | rfl
  · exact given name part update isData
  · exact valid.data

/-- An action that is read back is so after an edit if what it is given as data is clean. -/
theorem isFaithful_of_edit {supply after : IdSupply} {action edited : Action} {id : String}
    {updates : Fields} (faithful : action.IsFaithful) (clean : (StoreOp.edit id updates).IsClean)
    (edit : Archive.editAction supply action updates = (.ok edited, after)) :
    edited.IsFaithful := by
  have given : (StoreOp.edit id updates).IsValid :=
    fun name value member isData => (clean name value member isData).1
  refine ⟨isValid_of_edit faithful.valid given edit, ?_⟩
  obtain ⟨fresh, fields, same, read⟩ := Action.of_read_eq_ok edit
  obtain rfl := Json.obj.inj same
  refine Action.stored_of_readFields (fun name part named => ?_) read
  rcases data_of_edit named with ⟨update, isData⟩ | rfl
  · exact Json.storable_of_isFinite part (clean name part update isData).2
  · have stored : Json.storableFields action.data = action.data :=
      congrArg Action.data faithful.stored
    rw [Json.storable, stored]

/-- The records in a text are sound. -/
theorem isSound_importedRecords {text : String} {records : List Json}
    (imported : Archive.importedRecords text = .ok records) : ∀ record ∈ records, record.IsSound := by
  unfold Archive.importedRecords at imported
  split at imported
  · cases imported
  · cases imported
  · next fields read =>
    split at imported
    · next found named =>
      obtain rfl := Except.ok.inj imported
      have whole := Json.isSound_obj.mp (Json.read_delivers read)
      exact Json.isSound_arr.mp (whole.2 _ (Ordered.mem_of_get? named))
    · cases imported
  · cases imported

/-- The actions that are read from a text are valid. -/
theorem isValid_of_imported {text : String} {records : List Json} {supply after : IdSupply}
    {actions : List Action} (imported : Archive.importedRecords text = .ok records)
    (ok : Action.readUntilFault supply records = (.ok actions, after)) :
    ∀ action ∈ actions, action.IsValid := by
  intro action member
  obtain ⟨record, inRecords, _, _, read⟩ :=
    Action.exists_record_of_readUntilFault ok action member
  exact Action.isValid_of_read (isSound_importedRecords imported record inRecords).1 read

/-- The actions that are read from a clean text are read back. -/
theorem isFaithful_of_imported {text : String} {append : Bool} {records : List Json}
    {supply after : IdSupply} {actions : List Action}
    (clean : (StoreOp.adopt text append).IsClean)
    (imported : Archive.importedRecords text = .ok records)
    (ok : Action.readUntilFault supply records = (.ok actions, after)) :
    ∀ action ∈ actions, action.IsFaithful := by
  intro action member
  refine ⟨isValid_of_imported imported ok action member, ?_⟩
  obtain ⟨record, inRecords, _, _, read⟩ :=
    Action.exists_record_of_readUntilFault ok action member
  obtain ⟨fresh, fields, rfl, passed⟩ := Action.of_read_eq_ok read
  exact Action.stored_of_readFields (fun name part named =>
    Json.storable_of_isFinite part (clean records imported _ inRecords name part named)) passed

/-- Operations that are given valid actions bring valid actions. -/
theorem StoreOp.IsValid.brings {op : StoreOp} (valid : op.IsValid) : op.Brings Action.IsValid := by
  cases op with
  | replace _ | add _ => exact valid
  | edit id updates => exact fun _ _ _ _ source edit => isValid_of_edit source valid edit
  | remove _ | reorder _ | duplicate _ | clear | enable _ => trivial
  | adopt text append => exact fun _ _ _ _ => isValid_of_imported

/-- Operations that are given clean actions bring actions that are read back. -/
theorem StoreOp.IsClean.brings {op : StoreOp} (clean : op.IsClean) :
    op.Brings Action.IsFaithful := by
  cases op with
  | replace actions =>
    exact fun action member =>
      ⟨(clean action member).1, Action.stored_of_isFinite (clean action member).2⟩
  | add action => exact ⟨clean.1, Action.stored_of_isFinite clean.2⟩
  | edit id updates => exact fun _ _ _ _ source edit => isFaithful_of_edit source clean edit
  | remove _ | reorder _ | duplicate _ | clear | enable _ => trivial
  | adopt text append => exact fun _ _ _ _ => isFaithful_of_imported clean

/-! ## Histories on shelves -/

/-- What the operation of a step comes to on shelves. -/
def Shelves.effect (shelves : Shelves) (supply : IdSupply) (step : StoreStep) : StoreEffect :=
  step.op.effect step.locked step.subject (shelves step.subject) supply

/-- The shelves after an effect on one of them. -/
def Shelves.left (shelves : Shelves) (subject : String) (effect : StoreEffect) : Shelves :=
  match effect.written with
  | none => shelves
  | some e => Function.update shelves subject (some e)

/-- An effect leaves what it writes on the shelf of its subject, and else what was there. -/
theorem Shelves.left_self (shelves : Shelves) (subject : String) (effect : StoreEffect) :
    shelves.left subject effect subject = effect.written.or (shelves subject) := by
  unfold Shelves.left
  cases effect.written with
  | none => rfl
  | some e => exact Function.update_self ..

/-- An effect leaves the other shelves. -/
theorem Shelves.left_other (shelves : Shelves) {subject other : String} (elsewhere : other ≠ subject)
    (effect : StoreEffect) : shelves.left subject effect other = shelves other := by
  unfold Shelves.left
  cases effect.written with
  | none => rfl
  | some e => exact Function.update_of_ne elsewhere ..

/-- The answers of a history on shelves, and what it leaves there. -/
def Shelves.takeAll (shelves : Shelves) (supply : IdSupply) :
    List StoreStep → List (Except StoreError StoreAnswer) × Shelves
  | [] => ([], shelves)
  | step :: rest =>
    let effect := shelves.effect supply step
    let (answers, shelves) := (shelves.left step.subject effect).takeAll effect.supply rest
    (effect.answer :: answers, shelves)

/-- An effect with what is stored of the queue that it writes. -/
def StoreEffect.stored (effect : StoreEffect) : StoreEffect :=
  { effect with written := effect.written.map Envelope.stored }

namespace Archive

variable {a : Archive} {shelves : Shelves}

/-- An archive with what an effect writes holds the shelves after the effect. -/
theorem Holds.realize (holds : a.Holds shelves) (subject : String) {effect : StoreEffect}
    (valid : ∀ e ∈ effect.written,
      (∀ action ∈ e.actions, action.IsValid) ∧ e.isWritable = true) :
    (a.realize subject effect).2.Holds (shelves.left subject effect.stored) := by
  unfold Archive.realize Shelves.left StoreEffect.stored
  cases written : effect.written with
  | none => exact holds.congr rfl
  | some e =>
    obtain ⟨each, writable⟩ := valid e written
    exact (holds.putRow subject each writable).congr rfl

/-- An effect that writes actions that are read back is stored as it is. -/
theorem stored_of_isFaithful {effect : StoreEffect}
    (faithful : ∀ e ∈ effect.written, ∀ action ∈ e.actions, action.IsFaithful) :
    effect.stored = effect := by
  have same : effect.written.map Envelope.stored = effect.written := by
    cases written : effect.written with
    | none => rfl
    | some e => rw [Option.map_some, Envelope.stored, Action.map_stored (faithful e written)]
  rw [StoreEffect.stored, same]

/-- The actions on a shelf that is held are read back. -/
theorem Holds.isFaithful (holds : a.Holds shelves) (subject : String) :
    ∀ action ∈ actionsOn (shelves subject), action.IsFaithful := by
  cases shelf : shelves subject with
  | none => exact fun _ none => by cases none
  | some e => exact fun action member => (holds.kept subject e shelf action member).toIsFaithful

/-- Replacing a queue by actions that are read back: actions that cannot be written are refused, then
a locked table refuses all others, and else the actions are on the shelf. -/
theorem Holds.setQueue_cases (holds : a.Holds shelves) (subject : String) {actions : List Action}
    (faithful : ∀ action ∈ actions, action.IsFaithful) :
    (actions.all Action.isWritable = false ∧
        a.setQueue subject actions = (.error .unwritable, a)) ∨
      (actions.all Action.isWritable = true ∧ a.readOnly = true ∧
        a.setQueue subject actions = (.error (.save subject), a)) ∨
      (actions.all Action.isWritable = true ∧ a.readOnly = false ∧
        ∃ later, a.setQueue subject actions = (.ok (), later) ∧
          later.Holds (Function.update shelves subject
            (some (refilled (shelves subject) actions)))) := by
  have isOpen : a.isOpen = !a.readOnly := by
    rw [Archive.isOpen, holds.table, Bool.true_and]
  have saving : a.setQueue subject actions =
      a.save subject (refilled (shelves subject) actions) := by
    rw [Archive.setQueue, holds.load]
    rfl
  have stored : (refilled (shelves subject) actions).stored = refilled (shelves subject) actions := by
    rw [Envelope.stored, refilled, Action.map_stored faithful]
  rw [saving, Archive.save, Envelope.isWritable, isOpen]
  cases writable : actions.all Action.isWritable with
  | false => exact .inl ⟨rfl, by simp [refilled, writable]⟩
  | true =>
    cases locked : a.readOnly with
    | true => exact .inr (.inl ⟨rfl, rfl, by simp [refilled, writable]⟩)
    | false =>
      have put : (a.putRow subject (rowOf (refilled (shelves subject) actions))).Holds _ :=
        holds.putRow subject (fun action member => (faithful action member).valid) writable
      rw [stored] at put
      exact .inr (.inr ⟨rfl, rfl, _, by simp [refilled, writable], put⟩)

/-- An operation with valid actions leaves what is stored of its effect. -/
theorem Holds.perform_valid (holds : a.Holds shelves) (subject : String) {op : StoreOp}
    (valid : op.IsValid) :
    (a.perform subject op).2.Holds (shelves.left subject
      (op.effect a.readOnly subject (shelves subject) a.supply).stored) := by
  rw [holds.perform subject op]
  exact holds.realize subject (StoreOp.forall_written restsOnContent_isValid valid.brings
    fun action member => (holds.isFaithful subject action member).valid)

/-- A step with valid actions leaves what is stored of its effect. -/
theorem Holds.take_valid (holds : a.Holds shelves) {step : StoreStep} (valid : step.op.IsValid) :
    (a.take step).2.Holds (shelves.left step.subject (shelves.effect a.supply step).stored) := by
  have ready : { a with readOnly := step.locked }.Holds shelves := holds.congr rfl
  exact ready.perform_valid step.subject valid

/-- A step with clean actions is taken on an archive as on the shelves that it holds. -/
theorem Holds.take (holds : a.Holds shelves) {step : StoreStep} (clean : step.op.IsClean) :
    (a.take step).1 = (shelves.effect a.supply step).answer ∧
      (a.take step).2.Holds (shelves.left step.subject (shelves.effect a.supply step)) ∧
      (a.take step).2.supply = (shelves.effect a.supply step).supply := by
  have ready : { a with readOnly := step.locked }.Holds shelves := holds.congr rfl
  have written : ∀ e ∈ (shelves.effect a.supply step).written,
      (∀ action ∈ e.actions, action.IsFaithful) ∧ e.isWritable = true :=
    StoreOp.forall_written restsOnContent_isFaithful clean.brings (holds.isFaithful step.subject)
  have stored := stored_of_isFaithful fun e member => (written e member).1
  have realized := ready.realize step.subject fun e member =>
    ⟨fun action inQueue => ((written e member).1 action inQueue).valid, (written e member).2⟩
  rw [stored] at realized
  rw [Archive.take, ready.perform step.subject step.op]
  exact ⟨rfl, realized, rfl⟩

/-- After every history with valid actions the rows hold the queues on some shelves. -/
theorem Holds.exists_takeAll (holds : a.Holds shelves) {steps : List StoreStep}
    (valid : ∀ step ∈ steps, step.op.IsValid) : ∃ later, (a.takeAll steps).2.Holds later := by
  induction steps generalizing a shelves with
  | nil => exact ⟨shelves, holds⟩
  | cons step rest inductionHypothesis =>
    obtain ⟨first, later⟩ := List.forall_mem_cons.mp valid
    exact inductionHypothesis (holds.take_valid first) later

/-- A history is taken on an archive as on the shelves that it holds. -/
theorem Holds.takeAll (holds : a.Holds shelves) {steps : List StoreStep}
    (clean : ∀ step ∈ steps, step.op.IsClean) :
    (a.takeAll steps).1 = (shelves.takeAll a.supply steps).1 ∧
      (a.takeAll steps).2.Holds (shelves.takeAll a.supply steps).2 := by
  induction steps generalizing a shelves with
  | nil => exact ⟨rfl, holds⟩
  | cons step rest inductionHypothesis =>
    obtain ⟨first, later⟩ := List.forall_mem_cons.mp clean
    obtain ⟨answer, held, supply⟩ := holds.take first
    obtain ⟨answers, final⟩ := inductionHypothesis held later
    rw [supply] at answers final
    exact ⟨congrArg₂ List.cons answer answers, final⟩

/-- Whether a subject has a row is whether it has a queue. -/
theorem Holds.isSome_row? (holds : a.Holds shelves) (subject : String) :
    (a.row? subject).isSome = (shelves subject).isSome := by
  rw [holds.row subject, Option.isSome_map]

/-- A step leaves the queue, the flag and the row of every other subject. -/
theorem Holds.take_other (holds : a.Holds shelves) {step : StoreStep} (clean : step.op.IsClean)
    {other : String} (elsewhere : other ≠ step.subject) :
    (a.take step).2.row? other = a.row? other ∧
      ((a.take step).2.queue other).1 = (a.queue other).1 ∧
      ((a.take step).2.isEnabled other).1 = (a.isEnabled other).1 := by
  obtain ⟨_, held, _⟩ := holds.take clean
  have same := shelves.left_other elsewhere (shelves.effect a.supply step)
  rw [held.row, held.queue, held.isEnabled, same, holds.row, holds.queue, holds.isEnabled]
  exact ⟨rfl, rfl, rfl⟩

/-- A step that does not set the flag keeps the one of a queue that its subject has, and a queue
that its subject gets by it is enabled. -/
theorem Holds.take_flag (holds : a.Holds shelves) {step : StoreStep} (clean : step.op.IsClean)
    (other : ∀ enabled, step.op ≠ .enable enabled) :
    ((a.take step).2.isEnabled step.subject).1 =
      if (a.row? step.subject).isSome then (a.isEnabled step.subject).1
      else .ok ((a.take step).2.row? step.subject).isSome := by
  obtain ⟨_, held, _⟩ := holds.take clean
  have flag : ∀ e ∈ (shelves.effect a.supply step).written,
      e.enabled = ((shelves step.subject).map (·.enabled)).getD true :=
    StoreOp.enabled_written other
  rw [held.isEnabled, holds.isSome_row?, held.isSome_row?, holds.isEnabled, Shelves.left_self]
  cases written : (shelves.effect a.supply step).written with
  | none => cases shelves step.subject <;> rfl
  | some e =>
    have kept := flag e written
    cases shelf : shelves step.subject <;> simp_all

/-- A step that fails leaves every row. -/
theorem Holds.take_error (holds : a.Holds shelves) {step : StoreStep} {error : StoreError}
    (failed : (a.take step).1 = .error error) : (a.take step).2.rows = a.rows := by
  have ready : { a with readOnly := step.locked }.Holds shelves := holds.congr rfl
  rw [Archive.take, ready.perform step.subject step.op] at failed ⊢
  have nothing := StoreOp.written_of_error failed
  simp only [Archive.realize] at nothing ⊢
  rw [nothing]

/-! ## The archive is a map of queues -/

/-- After every history of clean operations that begins with no rows, the archive has answered as
the shelves have, and the actions and the flag of every subject are those on its shelf: those of
the last write that went well. One more operation leaves the row, the actions and the flag of every
other subject; it sets the flag of a queue only if it is the one that does, and a queue that comes
of any other is enabled; and if it fails, it leaves every row. -/
theorem refines_shelves {a : Archive} (empty : a.rows = some []) {steps : List StoreStep}
    (clean : ∀ step ∈ steps, step.op.IsClean) :
    let final := (a.takeAll steps).2
    let shelves := (Shelves.takeAll (fun _ => none) a.supply steps).2
    (a.takeAll steps).1 = (Shelves.takeAll (fun _ => none) a.supply steps).1 ∧
      (∀ subject, final.queue subject = (.ok (actionsOn (shelves subject)), final) ∧
        final.isEnabled subject = (.ok ((shelves subject).any (·.enabled)), final)) ∧
      ∀ next : StoreStep, next.op.IsClean →
        (∀ other, other ≠ next.subject →
          (final.take next).2.row? other = final.row? other ∧
            ((final.take next).2.queue other).1 = (final.queue other).1 ∧
            ((final.take next).2.isEnabled other).1 = (final.isEnabled other).1) ∧
        ((∀ enabled, next.op ≠ .enable enabled) →
          ((final.take next).2.isEnabled next.subject).1 =
            if (final.row? next.subject).isSome then (final.isEnabled next.subject).1
            else .ok ((final.take next).2.row? next.subject).isSome) ∧
        ∀ error, (final.take next).1 = .error error → (final.take next).2.rows = final.rows := by
  intro final shelves
  obtain ⟨answers, holds⟩ := (holds_empty empty).takeAll clean
  refine ⟨answers, fun subject => ⟨holds.queue subject, holds.isEnabled subject⟩, ?_⟩
  intro next nextClean
  exact ⟨fun other elsewhere => holds.take_other nextClean elsewhere,
    fun other => holds.take_flag nextClean other, fun error failed => holds.take_error failed⟩

/-- A blow with a weight of one half in its data. -/
def blow : Action :=
  { id := "a", kind := .attack, onSuccess := some "b",
    data := [("itemUuid", .str "axe"), ("weight", .float (.finite false 4503599627370496 (-53)))] }

/-- A queue is set, disabled and added to; then the table is locked, and clearing it fails. -/
def patrol : List StoreStep :=
  [⟨"hero", .replace [blow], false⟩, ⟨"hero", .enable false, false⟩, ⟨"hero", .add blow, false⟩,
    ⟨"hero", .clear, true⟩]

theorem refines_shelves_patrol :
    (({} : Archive).takeAll patrol).2.queue "hero" =
        (.ok [blow, { blow with order := 1 }], (({} : Archive).takeAll patrol).2) ∧
      (({} : Archive).takeAll patrol).2.isEnabled "hero" =
        (.ok false, (({} : Archive).takeAll patrol).2) := by
  have clean : ∀ step ∈ patrol, step.op.IsClean := by
    have faithful : blow.IsValid ∧ blow.IsFinite := by
      have weight : (Binary64.finite false 4503599627370496 (-53)).IsNormal := by decide
      exact ⟨⟨rfl, rfl, by decide, trivial, weight, trivial⟩, trivial, trivial, trivial⟩
    simp only [patrol, List.forall_mem_cons, List.not_mem_nil, false_implies, implies_true,
      and_true, StoreOp.IsClean]
    exact ⟨faithful, trivial, faithful⟩
  exact (refines_shelves rfl clean).2.1 "hero"

end Archive
end TurnScript
