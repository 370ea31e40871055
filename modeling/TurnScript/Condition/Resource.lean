import TurnScript.Condition.Threshold

/-!
# References to resources

A reference names the slots of a spell level or a pool. What it names must not be empty; a
reference that names nothing that can be read counts as available.
-/

namespace TurnScript

/-- The text after an opening, if a text begins with it. -/
def afterOpening (opening : List Char) (s : List Char) : Option (List Char) :=
  if opening.isPrefixOf s then some (s.drop opening.length) else none

/-- Whether a token has something left of what a reference names. -/
def Token.hasResource (t : Token) (reference : Option String) : Except CheckError Bool :=
  let s := (reference.getD "").toList
  match afterOpening "spell-slot-".toList s with
  | some rest =>
    let level := rest.takeWhile (· != '-')
    if level.isEmpty || !level.all Text.isDigitName then .ok true
    else match Text.readNumeral level with
      | .error error => .error (.numeral error)
      | .ok level => .ok (0 < t.slots level)
  | none => match afterOpening "resource-".toList s with
    | some name => .ok (0 < t.pool (String.ofList name))
    | none => .ok true

end TurnScript
