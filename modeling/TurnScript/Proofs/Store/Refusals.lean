import TurnScript.Proofs.Json.Overlong
import TurnScript.Proofs.Store.Appending

/-!
# How imports fail

An import is refused for its text: the text is no value, or no object with a list of actions, or one
of its records is none of an action. Else it fails only where the table is locked, and where what it
reads cannot be written: it is nested too deep, or there is no room for its last place. A numeral of
more digits than the limit stops the reader in a way of its own. However an import fails, it leaves
every row.
-/

namespace TurnScript

open Record

/-! ## What a text lists -/

/-- A text lists some records: it is an object with these as its actions. -/
def Lists (text : String) (records : List Json) : Prop :=
  ∃ fields, Json.read text = .ok (.obj fields) ∧ Json.get? fields "actions" = some (.arr records)

theorem Archive.importedRecords_eq_ok {text : String} {records : List Json} :
    Archive.importedRecords text = .ok records ↔ Lists text records := by
  unfold Archive.importedRecords Lists
  constructor
  · intro ok
    split at ok
    · cases ok
    · cases ok
    · next fields read =>
      split at ok
      · next listed named =>
        obtain rfl := Except.ok.inj ok
        exact ⟨fields, read, named⟩
      · cases ok
    · cases ok
  · rintro ⟨fields, read, named⟩
    simp only [read, named]

/-- A text lists one list of records at most. -/
theorem Lists.unique {text : String} {records others : List Json} (lists : Lists text records)
    (listsToo : Lists text others) : records = others :=
  Except.ok.inj ((Archive.importedRecords_eq_ok.mpr lists).symm.trans
    (Archive.importedRecords_eq_ok.mpr listsToo))

/-! ## Records of actions -/

namespace Record.Checked

variable {α β : Type}

/-- Something built on a check can pass if the check can. -/
theorem exists_map {build : α → β} {check : Checked α} :
    (∃ made, check.map build = .ok made) ↔ ∃ value, check = .ok value := by
  cases check <;> simp [Checked.map]

/-- Two checks can pass if both can. -/
theorem exists_also {first : Checked (α → β)} {second : Checked α} :
    (∃ made, first.also second = .ok made) ↔
      (∃ build, first = .ok build) ∧ ∃ value, second = .ok value := by
  cases first <;> cases second <;> simp [Checked.also]

end Record.Checked

namespace Action

/-- A record is one of an action, whatever id it may get. -/
def IsReadable (record : Json) : Prop :=
  ∃ action, readWith "" record = .ok action

/-- What a record names as data is nested deeper than can be written. -/
def IsTooDeep (record : Json) : Prop :=
  ∃ name data, firstNamed record.asFields ["data", "payload"] = some (name, .obj data) ∧
    depthLimit < Json.depthFields data

/-- Whether fields are read as an action does not depend on the id at hand. -/
theorem exists_readFields_iff (fresh other : String) (fields : Fields) :
    (∃ a, readFields fresh fields = .ok a) ↔ ∃ a, readFields other fields = .ok a := by
  have id : (∃ id, partOr fields ["id"] fresh readText = .ok id) ↔
      ∃ id, partOr fields ["id"] other readText = .ok id := by
    cases named : Json.get? fields "id" <;> simp [partOr, Record.part, firstNamed, named]
  simp only [readFields, Checked.exists_also, Checked.exists_map, id]

/-- A record is read with any id at hand exactly if it is one of an action. -/
theorem exists_readWith_iff (fresh : String) (record : Json) :
    (∃ a, readWith fresh record = .ok a) ↔ IsReadable record := by
  unfold IsReadable readWith
  split
  · exact exists_readFields_iff ..
  · rfl

/-- A record is read with any ids to be made exactly if it is one of an action. -/
theorem exists_read_iff (supply : IdSupply) (record : Json) :
    (∃ a, (read supply record).1 = .ok a) ↔ IsReadable record := by
  unfold read
  split
  · exact exists_readWith_iff _ record
  · exact exists_readWith_iff _ record

/-- Reading ends at the first record that is none of an action, with the faults of that. -/
theorem of_readUntilFault_refused {supply after : IdSupply} {records : List Json}
    {faults : List Fault} (refused : readUntilFault supply records = (.refused faults, after)) :
    ∃ before record rest between, records = before ++ record :: rest ∧
      (∀ earlier ∈ before, IsReadable earlier) ∧ ¬ IsReadable record ∧
      (read between record).1 = .refused faults := by
  induction records generalizing supply after with
  | nil => cases refused
  | cons record rest inductionHypothesis =>
    rw [readUntilFault] at refused
    split at refused
    · next found between first =>
      obtain rfl := Checked.refused.inj (congrArg Prod.fst refused)
      have here : (read supply record).1 = .refused found := congrArg Prod.fst first
      refine ⟨[], record, rest, supply, rfl, by simp, fun readable => ?_, here⟩
      obtain ⟨a, ok⟩ := (exists_read_iff supply record).mpr readable
      cases here.symm.trans ok
    · next a between first =>
      have readable : IsReadable record :=
        (exists_read_iff supply record).mp ⟨a, congrArg Prod.fst first⟩
      split at refused
      · next found later stopped =>
        obtain rfl := Checked.refused.inj (congrArg Prod.fst refused)
        obtain ⟨before, faulty, behind, made, rfl, earlier, none, told⟩ :=
          inductionHypothesis stopped
        exact ⟨record :: before, faulty, behind, made, rfl,
          List.forall_mem_cons.mpr ⟨readable, earlier⟩, none, told⟩
      · cases refused

/-- Every record that has been read is one of an action. -/
theorem isReadable_of_readUntilFault {supply after : IdSupply} {records : List Json}
    {actions : List Action} (ok : readUntilFault supply records = (.ok actions, after)) :
    ∀ record ∈ records, IsReadable record := by
  intro record member
  obtain ⟨place, inside, rfl⟩ := List.getElem_of_mem member
  have each := forall₂_of_readUntilFault ok
  obtain ⟨before, between, read⟩ := each.get inside (each.length_eq ▸ inside)
  exact (exists_read_iff before _).mp ⟨_, congrArg Prod.fst read⟩

/-- The data of an action that has been read is as deep as its record. -/
theorem isTooDeep_iff {supply after : IdSupply} {record : Json} {a : Action}
    (ok : read supply record = (.ok a, after)) :
    IsTooDeep record ↔ depthLimit < Json.depthFields a.data := by
  obtain ⟨fresh, fields, rfl, passed⟩ := of_read_eq_ok ok
  have data := (readFields_eq_ok.mp passed).data
  rcases of_partOr_eq_ok data with ⟨unnamed, usual⟩ | ⟨name, part, named, read⟩
  · simp [IsTooDeep, Json.asFields, unnamed, usual, Json.depthFields]
  · obtain rfl := of_readData_eq_ok read
    simp [IsTooDeep, Json.asFields, named]

/-- The data of an action that has been read from a sound record is sound. -/
theorem isWritableFields_of_read {supply after : IdSupply} {record : Json} {a : Action}
    (sound : record.IsSound) (ok : read supply record = (.ok a, after)) :
    Json.isWritableFields a.data = true := by
  obtain ⟨fresh, fields, rfl, passed⟩ := of_read_eq_ok ok
  have data := (readFields_eq_ok.mp passed).data
  rcases of_partOr_eq_ok data with ⟨_, usual⟩ | ⟨name, part, named, read⟩
  · rw [usual]
    rfl
  · obtain rfl := of_readData_eq_ok read
    exact ((Json.isSound_obj.mp sound).2 _ (mem_of_firstNamed named).2).2

end Action

/-- A text offers some records: it lists them, and each of them is one of an action. -/
structure Offers (text : String) (records : List Json) : Prop where
  lists : Lists text records
  readable : ∀ record ∈ records, Action.IsReadable record

namespace Archive

/-! ## What can be written of a text -/

/-- The actions of some records can be written in the places from a start on: none of them is nested
too deep, and there is room for the last place. -/
def AreWritable (start : Nat) (records : List Json) : Prop :=
  (∀ record ∈ records, ¬ Action.IsTooDeep record) ∧
    (records = [] ∨ start + records.length ≤ placeLimit)

section

variable {supply after : IdSupply} {records : List Json} {read : List Action} {ids : List String}
  (sound : ∀ record ∈ records, record.IsSound)
  (reading : Action.readUntilFault supply records = (.ok read, after))
  (enough : ids.length = read.length)
include sound reading enough

/-- An action that is read and adopted can be written if its record is not too deep and there is
room for its place. -/
theorem isWritable_imported (start : Nat) {place : Nat} (inside : place < records.length)
    (inAdopted : place < (adopt read ids start).length) :
    (adopt read ids start)[place].isWritable = true ↔
      ¬ Action.IsTooDeep records[place] ∧ start + place < placeLimit := by
  have each := Action.forall₂_of_readUntilFault reading
  have inRead : place < read.length := each.length_eq ▸ inside
  obtain ⟨_, _, first⟩ := each.get inside inRead
  have first : Action.read _ records[place] = (.ok read[place], _) := first
  have numbers := Action.isWritableFields_of_read (sound _ (List.getElem_mem inside)) first
  rw [getElem_adopt start place inAdopted inRead (by rwa [enough]), Action.isTooDeep_iff first,
    Nat.not_lt, ← isWritable_place]
  simp only [Action.isWritable, numbers, Bool.and_true, Bool.and_eq_true, decide_eq_true_eq]

/-- Actions that are read and adopted can be written if none of their records is too deep and there
is room for the last place. -/
theorem all_isWritable_imported (start : Nat) :
    (adopt read ids start).all Action.isWritable = true ↔ AreWritable start records := by
  have each := Action.forall₂_of_readUntilFault reading
  have length : (adopt read ids start).length = records.length :=
    (length_adopt enough start).trans each.length_eq.symm
  rw [List.all_eq_true]
  constructor
  · intro all
    have written (place : Nat) (inside : place < records.length) :=
      (isWritable_imported sound reading enough start inside (length ▸ inside)).mp
        (all _ (List.getElem_mem _))
    refine ⟨fun record member => ?_, ?_⟩
    · obtain ⟨place, inside, rfl⟩ := List.getElem_of_mem member
      exact (written place inside).1
    · rcases Nat.eq_zero_or_pos records.length with none | some
      · exact .inl (List.length_eq_zero_iff.mp none)
      · have last := (written (records.length - 1) (by omega)).2
        exact .inr (by omega)
  · rintro ⟨shallow, room⟩ action member
    obtain ⟨place, inside, rfl⟩ := List.getElem_of_mem member
    have inRecords : place < records.length := length ▸ inside
    refine (isWritable_imported sound reading enough start inRecords inside).mpr
      ⟨shallow _ (List.getElem_mem inRecords), ?_⟩
    rcases room with rfl | room
    · exact absurd inRecords (Nat.not_lt_zero _)
    · omega

end

/-! ## What an answer tells -/

/-- What an answer to an import tells of its text, which is read behind a number of actions. -/
def ImportTells (locked : Bool) (subject text : String) (start : Nat) :
    Except StoreError (List Action) → Prop
  | .ok imported => ∃ records, Offers text records ∧ AreWritable start records ∧ locked = false ∧
      imported.length = records.length
  | .error (.importSyntax error) => Json.read text = .error error ∧
      ∀ numeral, error ≠ .numeral numeral
  | .error .importShape => (∃ value, Json.read text = .ok value) ∧ ∀ records, ¬ Lists text records
  | .error (.importRecord faults) => ∃ before record rest supply,
      Lists text (before ++ record :: rest) ∧ (∀ earlier ∈ before, Action.IsReadable earlier) ∧
        ¬ Action.IsReadable record ∧ (Action.read supply record).1 = .refused faults
  | .error (.save who) => who = subject ∧ locked = true ∧
      ∃ records, Offers text records ∧ AreWritable start records
  | .error (.numeral error) => Json.read text = .error (.numeral error) ∧
      Json.IsOverlong text.toList error
  | .error .unwritable => ∃ records, Offers text records ∧ ¬ AreWritable start records
  | .error (.load _) | .error .notText | .error (.record _) | .error (.placeName _) => False

/-- What is made of a failure is the failure. -/
theorem of_map_eq_error {ε α β : Type} {build : α → β} {outcome : Except ε α} {error : ε}
    (failed : outcome.map build = .error error) : outcome = .error error := by
  cases outcome with
  | ok _ => cases failed
  | error _ => exact congrArg Except.error (Except.error.inj failed)

/-- A text that lists no records is refused for what it is. -/
theorem importTells_of_importedRecords {locked : Bool} {subject text : String} {start : Nat}
    {error : StoreError} (refused : importedRecords text = .error error) :
    ImportTells locked subject text start (.error error) := by
  have unlisted records : ¬ Lists text records := fun lists => by
    cases refused.symm.trans (importedRecords_eq_ok.mpr lists)
  unfold importedRecords at refused
  split at refused
  · next numeral read =>
    obtain rfl := Except.error.inj refused
    exact ⟨read, Json.isOverlong_of_read read⟩
  · next syntactic other read =>
    obtain rfl := Except.error.inj refused
    exact ⟨read, other⟩
  · next fields read =>
    split at refused
    · cases refused
    · obtain rfl := Except.error.inj refused
      exact ⟨⟨_, read⟩, unlisted⟩
  · next value _ read =>
    obtain rfl := Except.error.inj refused
    exact ⟨⟨_, read⟩, unlisted⟩

/-- An answer that goes with the effect of an import tells of its text. -/
theorem importTells_of_effect {locked append : Bool} {subject text : String}
    {shelf : Option Envelope} {supply : IdSupply} {result : Except StoreError (List Action)}
    (kept : ∀ action ∈ actionsOn shelf, action.isWritable = true)
    (goes : result.map StoreAnswer.many =
      ((StoreOp.adopt text append).effect locked subject shelf supply).answer) :
    ImportTells locked subject text (if append then actionsOn shelf else []).length result := by
  simp only [StoreOp.effect] at goes
  split at goes
  · next error refused =>
    obtain rfl := of_map_eq_error goes
    exact importTells_of_importedRecords refused
  next records listed =>
  have lists := importedRecords_eq_ok.mp listed
  split at goes
  · next faults _ refused =>
    obtain rfl := of_map_eq_error goes
    obtain ⟨before, record, rest, between, rfl, earlier, none, told⟩ :=
      Action.of_readUntilFault_refused refused
    exact ⟨before, record, rest, between, lists, earlier, none, told⟩
  next read after reading =>
  have offers : Offers text records := ⟨lists, Action.isReadable_of_readUntilFault reading⟩
  -- What is kept has been written before, so only what has been read decides.
  have old : (if append then actionsOn shelf else []).all Action.isWritable = true := by
    split
    · exact List.all_eq_true.mpr kept
    · rfl
  generalize (if append then actionsOn shelf else []) = existing at goes old
  have new := all_isWritable_imported (isSound_importedRecords listed) reading
    (after.length_freshFor read) existing.length
  have room : (refilled shelf (existing ++
      adopt read (after.freshFor read).1 existing.length)).isWritable = true ↔
      AreWritable existing.length records := by
    rw [Envelope.isWritable, refilled, List.all_append, old, Bool.true_and, new]
  simp only [StoreEffect.writing] at goes
  split at goes
  · next unwritable =>
    obtain rfl := of_map_eq_error goes
    refine ⟨records, offers, fun writable => ?_⟩
    simp [room.mpr writable] at unwritable
  next writable =>
  have fits := room.mp (by simpa using writable)
  split at goes
  · next isLocked =>
    obtain rfl := of_map_eq_error goes
    exact ⟨rfl, isLocked, records, offers, fits⟩
  · next unlocked =>
    obtain ⟨imported, rfl, same⟩ := Json.of_map_eq_ok goes
    obtain rfl := StoreAnswer.many.inj same
    refine ⟨records, offers, fits, by simpa using unlocked, ?_⟩
    rw [length_adopt (after.length_freshFor read)]
    exact (Action.forall₂_of_readUntilFault reading).length_eq.symm

/-- An import fails as nobody foresees: the reader stops at a numeral with too many digits, or what
it has read cannot be written. -/
def IsUnforeseen (text : String) (start : Nat) : Prop :=
  (∃ numeral, Json.read text = .error (.numeral numeral)) ∨
    ∃ records, Offers text records ∧ ¬ AreWritable start records

/-- Nothing unforeseen comes of a text that lists records which can be written if they are read. -/
theorem not_isUnforeseen {text : String} {start : Nat} {records : List Json}
    (lists : Lists text records) (fits : Offers text records → AreWritable start records) :
    ¬ IsUnforeseen text start := by
  rintro (⟨numeral, refused⟩ | ⟨others, offers, unwritable⟩)
  · obtain ⟨_, read, _⟩ := lists
    cases read.symm.trans refused
  · obtain rfl := lists.unique offers.lists
    exact unwritable (fits offers)

/-- An answer that callers do not expect is given exactly where an import fails as nobody
foresees. -/
theorem ImportTells.unexpected_iff {locked : Bool} {subject text : String} {start : Nat}
    {result : Except StoreError (List Action)}
    (tells : ImportTells locked subject text start result) :
    (∃ error, result = .error error ∧ error.isExpected = false) ↔ IsUnforeseen text start := by
  constructor
  · rintro ⟨error, rfl, unexpected⟩
    cases error with
    | numeral error => exact .inl ⟨error, tells.1⟩
    | unwritable => exact .inr tells
    | load _ | notText | record _ | placeName _ => exact tells.elim
    | save _ | importSyntax _ | importShape | importRecord _ => cases unexpected
  · intro unforeseen
    cases result with
    | ok _ =>
      obtain ⟨_, offers, fits, _⟩ := tells
      exact absurd unforeseen (not_isUnforeseen offers.lists fun _ => fits)
    | error error =>
      refine ⟨error, rfl, ?_⟩
      cases error with
      | numeral _ | unwritable => rfl
      | load _ | notText | record _ | placeName _ => exact tells.elim
      | save _ =>
        obtain ⟨_, _, _, offers, fits⟩ := tells
        exact absurd unforeseen (not_isUnforeseen offers.lists fun _ => fits)
      | importRecord _ =>
        obtain ⟨before, record, rest, _, lists, _, unreadable, _⟩ := tells
        refine absurd unforeseen (not_isUnforeseen lists fun offers => ?_)
        exact absurd (offers.readable record (by simp)) unreadable
      | importSyntax _ =>
        obtain ⟨refused, syntactic⟩ := tells
        rcases unforeseen with ⟨numeral, refusedToo⟩ | ⟨_, ⟨⟨_, read, _⟩, _⟩, _⟩
        · exact absurd (Except.error.inj (refused.symm.trans refusedToo)) (syntactic numeral)
        · cases refused.symm.trans read
      | importShape =>
        obtain ⟨⟨_, read⟩, unlisted⟩ := tells
        rcases unforeseen with ⟨_, refused⟩ | ⟨records, offers, _⟩
        · cases read.symm.trans refused
        · exact absurd offers.lists (unlisted records)

/-! ## Imports that fail -/

variable {a : Archive} {shelves : Shelves}

/-- An import that fails leaves every row. -/
theorem Holds.importQueue_error (holds : a.Holds shelves) {subject text : String} {append : Bool}
    {error : StoreError} (failed : (a.importQueue subject text append).1 = .error error) :
    (a.importQueue subject text append).2.rows = a.rows := by
  have taken : (a.take ⟨subject, .adopt text append, a.readOnly⟩).1 = .error error := by
    show (a.importQueue subject text append).1.map StoreAnswer.many = .error error
    rw [failed]
    rfl
  exact holds.take_error taken

/-- After every history with valid actions, what an import answers tells of its text: it goes well
where the text lists records of actions that can be written and the table is not locked, and every
failure has a reason of its own. The failure is one that callers expect unless the reader stops at a
numeral with too many digits, or what it has read cannot be written. However an import fails, the
actions and the flag of every subject are what they were. -/
theorem imports_tell_of_their_text {a : Archive} (empty : a.rows = some [])
    {steps : List StoreStep} (valid : ∀ step ∈ steps, step.op.IsValid) (locked append : Bool)
    (subject text : String) :
    let final := { (a.takeAll steps).2 with readOnly := locked }
    let result := (final.importQueue subject text append).1
    let later := (final.importQueue subject text append).2
    ∃ stored, final.queue subject = (.ok stored, final) ∧
      let start := (if append then stored else []).length
      ImportTells locked subject text start result ∧
        ((∃ error, result = .error error ∧ error.isExpected = false) ↔ IsUnforeseen text start) ∧
        ∀ error, result = .error error → later.rows = final.rows ∧
          ∀ other, (later.queue other).1 = (final.queue other).1 ∧
            (later.isEnabled other).1 = (final.isEnabled other).1 := by
  intro final result later
  obtain ⟨shelves, held⟩ := (holds_empty empty).exists_takeAll valid
  have holds : final.Holds shelves := held.congr rfl
  have tells : ImportTells locked subject text
      (if append then actionsOn (shelves subject) else []).length result :=
    importTells_of_effect (fun action member => (holds.isKept subject action member).writable)
      (congrArg Prod.fst (holds.perform subject (.adopt text append)))
  refine ⟨_, holds.queue subject, tells, tells.unexpected_iff, fun error failed => ?_⟩
  have same : later.rows = final.rows := holds.importQueue_error failed
  have holdsLater : later.Holds shelves := holds.congr same
  refine ⟨same, fun other => ?_⟩
  rw [holdsLater.queue, holds.queue, holdsLater.isEnabled, holds.isEnabled]
  exact ⟨rfl, rfl⟩

/-- The text of an object with a null among its actions. -/
def hollow : String :=
  Json.text (.obj [("actions", .arr [.null])])

theorem lists_hollow : Lists hollow [.null] := by
  have proper : (Json.obj [("actions", .arr [.null])]).IsProper :=
    ⟨by simp [Ordered.keys], ⟨trivial, trivial⟩, trivial⟩
  exact ⟨_, Json.read_text proper rfl, rfl⟩

theorem imports_tell_of_their_text_hollow :
    let later := (armed.importQueue "hero" hollow true).2
    (armed.importQueue "hero" hollow true).1 = .error (.importRecord [⟨[], .notObject⟩]) ∧
      (later.queue "hero").1 = .ok [bow, axe] := by
  intro later
  have refused : (armed.importQueue "hero" hollow true).1 =
      .error (.importRecord [⟨[], .notObject⟩]) := by
    rw [Archive.importQueue, importedRecords_eq_ok.mpr lists_hollow]
    rfl
  obtain ⟨_, _, _, _, unchanged⟩ :=
    imports_tell_of_their_text (a := {}) rfl isValid_arming false true "hero" hollow
  obtain ⟨_, same⟩ := unchanged _ refused
  have queue : (armed.queue "hero").1 = .ok [bow, axe] := congrArg Prod.fst queue_armed
  exact ⟨refused, (same "hero").1.trans queue⟩

/-- A row of ones that is one longer than the limit is not read. -/
theorem read_ones : Json.read (String.ofList (List.replicate (Text.digitLimit + 1) '1')) =
    .error (.numeral (.tooLong (Text.digitLimit + 1))) := by
  have all : ∀ c ∈ List.replicate (Text.digitLimit + 1) '1', Json.isCommonDigit c = true := by
    intro c member
    rw [List.eq_of_mem_replicate member]
    rfl
  have lead : (List.replicate (Text.digitLimit + 1) '1').head? ≠ some '0' := by
    rw [List.replicate_succ, List.head?_cons]
    decide
  have read := Json.read_overlong all lead (by rw [List.length_replicate]; omega)
  rwa [List.length_replicate] at read

/-- A numeral with one digit more than the limit fails an import as nobody foresees. -/
theorem overlong_numeral_is_unexpected :
    let text := String.ofList (List.replicate (Text.digitLimit + 1) '1')
    let error := StoreError.numeral (.tooLong (Text.digitLimit + 1))
    (armed.importQueue "hero" text false).1 = .error error ∧ error.isExpected = false := by
  intro text error
  have refused : Json.read text = .error (.numeral (.tooLong (Text.digitLimit + 1))) := read_ones
  refine ⟨?_, rfl⟩
  rw [Archive.importQueue, importedRecords, refused]

end Archive
end TurnScript
