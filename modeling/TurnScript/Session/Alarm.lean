/-!
# Alarms

Alarms stand in a row that is a heap: below the alarm at a place `n` stand those at the places
`2 * n + 1` and `2 * n + 2`, and neither is due before it. So the first of the row is due first.

Only the time counts. Alarms that are due at one moment go off in an order that comes of how the
row was made, and which is in general not the one in which they were set. That is why the moves
within the row are fixed here one by one.
-/

namespace TurnScript

/-- Something is due at a moment. -/
structure Alarm where
  due : Int
  /-- Which alarm it is. -/
  serial : Nat
  /-- Whether it goes off to no effect. -/
  silenced : Bool := false
  deriving Repr, DecidableEq, Inhabited

/-- A row of alarms. -/
abbrev Alarms := List Alarm

namespace Alarms

/-- Put an alarm in a place, or in one above: it rises past all that it is due before. -/
def rise (alarm : Alarm) : Nat → Nat → Alarms → Alarms
  | 0, place, row => row.set place alarm
  | fuel + 1, place, row =>
    let above := (place - 1) / 2
    match row[above]? with
    | none => row.set place alarm
    | some parent =>
      if place ≠ 0 ∧ alarm.due < parent.due then rise alarm fuel above (row.set place parent)
      else row.set place alarm

/-- Set one more alarm. -/
def add (row : Alarms) (alarm : Alarm) : Alarms :=
  rise alarm row.length row.length (row ++ [alarm])

/-- What moves up into a gap, with its place: of the two below it the one that is due first, and
of two that are due at one moment the second. -/
def heir? (row : Alarms) (gap : Nat) : Option (Nat × Alarm) :=
  match row[2 * gap + 1]?, row[2 * gap + 2]? with
  | none, _ => none
  | some first, none => some (2 * gap + 1, first)
  | some first, some second =>
    if first.due < second.due then some (2 * gap + 1, first) else some (2 * gap + 2, second)

/-- Let a gap sink until there is nothing below it, and tell where it is. -/
def sink : Nat → Nat → Alarms → Nat × Alarms
  | 0, gap, row => (gap, row)
  | fuel + 1, gap, row => match heir? row gap with
    | none => (gap, row)
    | some (place, heir) => sink fuel place (row.set gap heir)

/-- Take out the first alarm. The last one goes into the gap once that has sunk. -/
def takeFirst? : Alarms → Option (Alarm × Alarms)
  | [] => none
  | first :: rest => match rest.getLast? with
    | none => some (first, [])
    | some last =>
      let (gap, row) := sink rest.length 0 (last :: rest.dropLast)
      some (first, rise last rest.length gap row)

/-- Take out the alarms that are due at a moment, one after the other. -/
def takeDue (moment : Int) : Nat → Alarms → List Alarm × Alarms
  | 0, row => ([], row)
  | fuel + 1, row => match takeFirst? row with
    | none => ([], row)
    | some (first, rest) =>
      if first.due ≤ moment then
        let (due, row) := takeDue moment fuel rest
        (first :: due, row)
      else ([], row)

/-- Take out the first alarms as long as they are silenced, at most so many. -/
def dropSilenced : Nat → Alarms → Alarms
  | 0, row => row
  | fuel + 1, row => match takeFirst? row with
    | none => row
    | some (first, rest) => if first.silenced then dropSilenced fuel rest else row

/-- The row without the silenced alarms in front. -/
def tidied (row : Alarms) : Alarms :=
  dropSilenced row.length row

/-- Silence an alarm. It stays in its place. -/
def silence (row : Alarms) (serial : Nat) : Alarms :=
  row.map fun alarm => if alarm.serial = serial then { alarm with silenced := true } else alarm

/-- Rising moves alarms about and adds none. -/
theorem length_rise (alarm : Alarm) (fuel place : Nat) (row : Alarms) :
    (rise alarm fuel place row).length = row.length := by
  induction fuel generalizing place row with
  | zero => simp [rise]
  | succ fuel ih =>
    simp only [rise]
    split
    · simp
    · split
      · simp [ih]
      · simp

/-- One more alarm is set. -/
theorem length_add (row : Alarms) (alarm : Alarm) : (row.add alarm).length = row.length + 1 := by
  simp [add, length_rise]

/-- Sinking moves alarms about and takes none out. -/
theorem length_sink (fuel gap : Nat) (row : Alarms) : (sink fuel gap row).2.length = row.length := by
  induction fuel generalizing gap row with
  | zero => simp [sink]
  | succ fuel ih =>
    simp only [sink]
    split
    · rfl
    · simp [ih]

/-- One alarm is taken out. -/
theorem length_takeFirst? {row rest : Alarms} {first : Alarm}
    (taken : takeFirst? row = some (first, rest)) : rest.length + 1 = row.length := by
  cases row with
  | nil => simp [takeFirst?] at taken
  | cons head tail =>
    simp only [takeFirst?] at taken
    split at taken
    · next empty =>
      have : tail = [] := by simpa using empty
      simp_all
    · next last found =>
      have positive : tail.length ≠ 0 := by
        intro none
        simp [List.length_eq_zero_iff.mp none] at found
      simp only [Option.some.injEq, Prod.mk.injEq] at taken
      rw [← taken.2]
      simp [length_rise, length_sink]
      omega

end Alarms
end TurnScript
