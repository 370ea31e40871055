import TurnScript.Store.Queue

/-!
# Handing queues on

A queue is exported as a text and imported from one. Imported actions get fresh ids and
orders that go on from the actions they are appended to. References between imported
actions follow the new ids, and references to anything else are cleared.
-/

namespace TurnScript.Archive

/-- The text of a subject's queue, under the name of its token. -/
def exportQueue (a : Archive) (subject : String) (tokenName : Option String) :
    Except StoreError String × Archive :=
  let (actions, a) := a.queue subject
  (actions.bind fun actions =>
    let handedOn : Export := { tokenName, actions }
    if handedOn.isWritable then .ok (Json.indentedText handedOn.toRecord) else .error .unwritable, a)

/-- The text of a subject's queue under whatever is given as the name of its token: a text or
null, which is looked at only when the queue is at hand. -/
def exportQueueAs (a : Archive) (subject : String) (name : Json) :
    Except StoreError String × Archive :=
  match (Record.optional Record.readText name).under (.name "token_name") with
  | .ok tokenName => a.exportQueue subject tokenName
  | .refused faults =>
    let (actions, a) := a.queue subject
    (actions.bind fun _ => .error (.record faults), a)

/-- The records in an import. -/
def importedRecords (text : String) : Except StoreError (List Json) :=
  match Json.read text with
  | .error (.numeral error) => .error (.numeral error)
  | .error error => .error (.importSyntax error)
  | .ok (.obj fields) => match Json.get? fields "actions" with
    | some (.arr records) => .ok records
    | _ => .error .importShape
  | .ok _ => .error .importShape

/-- The new id of an old one: that of the first imported action that carried it. -/
def renamed (newIds : List (String × String)) (reference : Option String) : Option String :=
  (nonempty reference).bind fun old => (newIds.find? (·.1 == old)).map (·.2)

/-- Imported actions under their new ids, with orders from `start` on. -/
def adopt (actions : List Action) (ids : List String) (start : Nat) : List Action :=
  let newIds := (actions.map (·.id)).zip ids
  (actions.zip ids).mapIdx fun place (action, id) =>
    { action with
      id
      order := (start + place : Nat)
      onSuccess := renamed newIds action.onSuccess
      onFailure := renamed newIds action.onFailure }

/-- Import a text as the queue of a subject, or at the end of it; answers with the imported
actions. -/
def importQueue (a : Archive) (subject text : String) (append : Bool) :
    Except StoreError (List Action) × Archive :=
  match importedRecords text with
  | .error error => (.error error, a)
  | .ok records =>
    match Action.readUntilFault a.supply records with
    | (.refused faults, supply) => (.error (.importRecord faults), { a with supply })
    | (.ok actions, supply) =>
      let a := { a with supply }
      match (if append then a.queue subject else (Except.ok [], a)) with
      | (.error error, a) => (.error error, a)
      | (.ok existing, a) =>
        let (ids, supply) := a.supply.freshFor actions
        let imported := adopt actions ids existing.length
        { a with supply }.setQueueThen subject (existing ++ imported) imported

end TurnScript.Archive
