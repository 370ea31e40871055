import TurnScript.Proofs.Play.Targets

/-!
# Sides that fight each other

Two tokens are hostile to each other if the numbers of their sides are opposite, so tokens of one
scene that are alive and seen agree on it. The neutral side has the opposite of its own number.
Hence neutral tokens are hostile to each other, and only to each other; on the two other sides
nobody is hostile to its own.
-/

namespace TurnScript

namespace Disposition

variable {one other : Disposition}

/-- Whether two sides fight: their numbers are opposite. -/
def Fights (one other : Disposition) : Prop :=
  other.number = -one.number

theorem fights_comm : one.Fights other ↔ other.Fights one := by
  unfold Fights
  constructor <;> intro opposite <;> omega

/-- Only the neutral side fights itself. -/
theorem fights_self_iff : one.Fights one ↔ one = neutral := by
  cases one <;> simp [Fights, number]

/-- Who fights the neutral side is neutral, and it fights nobody else. -/
theorem Fights.neutral_iff (fights : one.Fights other) : other = neutral ↔ one = neutral := by
  constructor
  · rintro rfl
    cases one <;> simp_all [Fights, number]
  · rintro rfl
    cases other <;> simp_all [Fights, number]

end Disposition

namespace Board

variable {b : Board} {subject other : TokenRef} {reveal : Bool}

/-- The side of a token. -/
def side (b : Board) (ref : TokenRef) : Disposition :=
  (b.token ref).disposition

/-- A token that the scene holds alive, and that is visible or revealed. -/
structure IsInPlay (b : Board) (reveal : Bool) (ref : TokenRef) : Prop where
  listed : ref ∈ b.scene.tokens
  alive : 0 < (b.token ref).hp
  seen : (b.token ref).hidden = true → reveal = true

/-- A token in play is a hostile of every other one whose side fights its own. -/
theorem IsInPlay.mem_hostilesOf_iff (inPlay : b.IsInPlay reveal other) :
    other ∈ b.hostilesOf subject reveal ↔
      (b.token other).id ≠ (b.token subject).id ∧ (b.side subject).Fights (b.side other) := by
  rw [Board.mem_hostilesOf_iff]
  constructor
  · intro faces
    exact ⟨faces.another, faces.opposed⟩
  · rintro ⟨another, fights⟩
    exact ⟨inPlay.listed, another, fights, inPlay.alive, inPlay.seen⟩

/-- Only tokens in play are hostiles. -/
theorem isInPlay_of_mem_hostilesOf (hostile : other ∈ b.hostilesOf subject reveal) :
    b.IsInPlay reveal other := by
  have faces := Board.mem_hostilesOf_iff.mp hostile
  exact ⟨faces.listed, faces.alive, faces.seen⟩

theorem fights_of_mem_hostilesOf (hostile : other ∈ b.hostilesOf subject reveal) :
    (b.side subject).Fights (b.side other) :=
  (Board.mem_hostilesOf_iff.mp hostile).opposed

/-- Tokens in play agree on whether they are hostile to each other, and those with the names of
different tokens are if their sides fight. A token has a hostile of its own side exactly if it is
neutral and another neutral token is in play. Every hostile of a neutral token is neutral, and no
other token has a neutral hostile. -/
theorem only_neutrals_fight_their_own (b : Board) (reveal : Bool) :
    (∀ one other, b.IsInPlay reveal one → b.IsInPlay reveal other →
      (other ∈ b.hostilesOf one reveal ↔ one ∈ b.hostilesOf other reveal)) ∧
    (∀ subject other, b.IsInPlay reveal other → (b.token other).id ≠ (b.token subject).id →
      (other ∈ b.hostilesOf subject reveal ↔ (b.side subject).Fights (b.side other))) ∧
    (∀ subject, (∃ other ∈ b.hostilesOf subject reveal, b.side other = b.side subject) ↔
      b.side subject = .neutral ∧ ∃ other, b.IsInPlay reveal other ∧
        (b.token other).id ≠ (b.token subject).id ∧ b.side other = .neutral) ∧
    ∀ subject, ∀ other ∈ b.hostilesOf subject reveal,
      b.side other = .neutral ↔ b.side subject = .neutral := by
  refine ⟨?_, ?_, ?_, ?_⟩
  · intro one other oneInPlay otherInPlay
    rw [otherInPlay.mem_hostilesOf_iff, oneInPlay.mem_hostilesOf_iff, Disposition.fights_comm,
      ne_comm]
  · intro subject other inPlay another
    rw [inPlay.mem_hostilesOf_iff]
    exact and_iff_right another
  · intro subject
    constructor
    · rintro ⟨other, hostile, same⟩
      have fights := fights_of_mem_hostilesOf hostile
      rw [same] at fights
      have neutral := Disposition.fights_self_iff.mp fights
      have inPlay := isInPlay_of_mem_hostilesOf hostile
      exact ⟨neutral, other, inPlay, (inPlay.mem_hostilesOf_iff.mp hostile).1, same.trans neutral⟩
    · rintro ⟨neutral, other, inPlay, another, alike⟩
      have same := alike.trans neutral.symm
      have fights : (b.side subject).Fights (b.side other) := by
        rw [same]
        exact Disposition.fights_self_iff.mpr neutral
      exact ⟨other, inPlay.mem_hostilesOf_iff.mpr ⟨another, fights⟩, same⟩
  · intro subject other hostile
    exact (fights_of_mem_hostilesOf hostile).neutral_iff

/-- A hero and a wolf who fight, and a neutral cat and a neutral dog who have strayed between
them. -/
def strays : Board where
  roster := [
    { id := "hero", name := "Hero", disposition := .friendly },
    { id := "wolf", name := "Wolf", position := ⟨3, 4⟩, disposition := .hostile },
    { id := "cat", name := "Cat", position := ⟨1, 1⟩, disposition := .neutral },
    { id := "dog", name := "Dog", position := ⟨2, 1⟩, disposition := .neutral }]
  scene.nodes := [("hero", .token 0), ("wolf", .token 1), ("cat", .token 2), ("dog", .token 3)]

theorem only_neutrals_fight_their_own_strays :
    strays.IsInPlay false 0 ∧ strays.IsInPlay false 1 ∧ strays.IsInPlay false 3 ∧
      1 ∈ strays.hostilesOf 0 false ∧ 0 ∈ strays.hostilesOf 1 false ∧
      (∃ other ∈ strays.hostilesOf 2 false, strays.side other = strays.side 2) ∧
      ¬ ∃ other ∈ strays.hostilesOf 1 false, strays.side other = strays.side 1 := by
  have hero : strays.IsInPlay false 0 := ⟨by decide, by decide, by decide⟩
  have wolf : strays.IsInPlay false 1 := ⟨by decide, by decide, by decide⟩
  have dog : strays.IsInPlay false 3 := ⟨by decide, by decide, by decide⟩
  obtain ⟨agree, fight, own, -⟩ := only_neutrals_fight_their_own strays false
  have attacked : 1 ∈ strays.hostilesOf 0 false := (fight 0 1 wolf (by decide)).mpr (by
    unfold Disposition.Fights
    decide)
  refine ⟨hero, wolf, dog, attacked, (agree 0 1 hero wolf).mp attacked, ?_, ?_⟩
  · exact (own 2).mpr ⟨by decide, 3, dog, by decide, by decide⟩
  · intro fights
    exact absurd ((own 1).mp fights).1 (by decide)

/-- The dog is a hostile of the cat, though both are on one side, and the neutral one. -/
theorem cat_fights_dog :
    strays.side 2 = .neutral ∧ strays.side 3 = strays.side 2 ∧
      strays.hostilesOf 2 false = [3] ∧ strays.hostilesOf 3 false = [2] := by
  decide

end Board
end TurnScript
