import TurnScript.Condition.Verdict
import TurnScript.Proofs.Condition.Thresholds

/-!
# References that block an action

A reference names a supply, the slots of a level or a pool, and an action is blocked if there is
nothing left of it. The reading of references is looser than their grammar on one side and stricter
on the other: a level is read only up to the next dash, a pool may have an empty name, and a level
of too many digits is not read at all. Everywhere else exactly the references of the grammar block,
and they do so exactly when nothing is left.
-/

namespace TurnScript

namespace Text

/-- A numeral of decimal digits of any scripts. -/
def IsNumeral (s : List Char) : Prop :=
  s ≠ [] ∧ ∀ c ∈ s, isDigit c = true

/-- What is read as digits alone is a numeral that is not too long. -/
theorem readDigits_eq_ok_iff {whole s : List Char} {n : Nat} :
    readDigits whole s = .ok n ↔
      IsNumeral s ∧ s.length ≤ digitLimit ∧ n = digitsValue s := by
  constructor
  · intro read
    unfold readDigits at read
    dsimp only at read
    split at read
    · cases read
    · next short =>
      split at read
      · cases read
      · next whole =>
        simp only [Bool.or_eq_true, List.isEmpty_iff, decide_eq_true_eq, not_or, not_lt] at whole
        have all : s.takeWhile isDigit = s :=
          (List.takeWhile_prefix isDigit).eq_of_length_le whole.2
        rw [all] at short whole read
        refine ⟨⟨whole.1, List.takeWhile_eq_self_iff.mp all⟩, not_lt.mp short, ?_⟩
        exact (Except.ok.inj read).symm
  · rintro ⟨⟨some, digit⟩, short, rfl⟩
    exact readDigits_of_digits some digit short

/-- A numeral among names of digits has no sign. -/
theorem readNumeral_of_names {s : List Char} (names : ∀ c ∈ s, isDigitName c = true) :
    readNumeral s = (readDigits s s).map Int.ofNat := by
  have plus : isDigitName '+' = false := by decide
  have minus : isDigitName '-' = false := by decide
  unfold readNumeral
  split
  · simp [plus] at names
  · simp [minus] at names
  · rfl

end Text

/-! ## Supplies and their references -/

/-- What a reference names: the slots of a level that is written out, or a pool. -/
inductive Supply where
  | slots (level : List Char)
  | pool (name : List Char)
  deriving Repr, DecidableEq

namespace Supply

/-- How references to slots begin. -/
def slotOpening : List Char := "spell-slot-".toList

/-- How references to pools begin. -/
def poolOpening : List Char := "resource-".toList

/-- The reference to a supply. -/
def text : Supply → List Char
  | slots level => slotOpening ++ level
  | pool name => poolOpening ++ name

/-- Whether the grammar of references has one for a supply: its level is a numeral, or its pool has
a name. -/
def IsWellFormed : Supply → Prop
  | slots level => Text.IsNumeral level
  | pool name => name ≠ []

/-- What a text is read to name: a level up to the next dash, if it is a numeral that is not too
long, or a pool of any name. -/
inductive Named : List Char → Supply → Prop where
  | slots {level rest : List Char} (numeral : Text.IsNumeral level)
      (short : level.length ≤ Text.digitLimit) (ends : ∀ c ∈ rest.head?, c = '-') :
      Named ((slots level).text ++ rest) (slots level)
  | pool (name : List Char) : Named (pool name).text (pool name)

/-- References to slots and to pools begin apart. -/
theorem slotOpening_ne (rest name : List Char) : slotOpening ++ rest ≠ poolOpening ++ name := by
  intro same
  unfold slotOpening poolOpening at same
  have first := congrArg List.head? same
  simp at first

end Supply

open Supply

/-- How much a token has left of a supply. -/
def Token.left (t : Token) : Supply → Int
  | .slots level => t.slots (Text.digitsValue level)
  | .pool name => t.pool (String.ofList name)

/-! ## Reading references -/

theorem afterOpening_eq_some_iff {opening s rest : List Char} :
    afterOpening opening s = some rest ↔ s = opening ++ rest := by
  unfold afterOpening
  constructor
  · intro found
    split at found
    · next leads =>
      obtain ⟨tail, rfl⟩ := List.isPrefixOf_iff_prefix.mp leads
      rw [List.drop_left] at found
      rw [Option.some.inj found]
    · cases found
  · rintro rfl
    simp

/-- A numeral ends at the next dash. -/
theorem Text.IsNumeral.takeWhile_append {level rest : List Char} (numeral : Text.IsNumeral level)
    (ends : ∀ c ∈ rest.head?, c = '-') : (level ++ rest).takeWhile (· != '-') = level := by
  have dash : Text.isDigit '-' = false := by decide
  have others : ∀ c ∈ level, (c != '-') = true := by
    intro c member
    rw [bne_iff_ne]
    rintro rfl
    exact absurd (numeral.2 _ member) (Bool.eq_false_iff.mp dash)
  exact Text.takeWhile_run others fun c first => by rw [ends c first]; decide

section Token

variable {t : Token} {text : String} {supply : Supply}

/-- A reference to slots is answered by its level, if that can be read. -/
theorem Token.hasResource_slots {rest : List Char} (written : text.toList = slotOpening ++ rest) :
    t.hasResource (some text) =
      let level := rest.takeWhile (· != '-')
      if level.isEmpty || !level.all Text.isDigitName then .ok true
      else match Text.readNumeral level with
        | .error error => .error (.numeral error)
        | .ok level => .ok (0 < t.slots level) := by
  have opened := afterOpening_eq_some_iff.mpr written
  unfold slotOpening at opened
  unfold Token.hasResource
  rw [Option.getD_some]
  dsimp only
  generalize afterOpening "spell-slot-".toList text.toList = opening at opened ⊢
  subst opened
  rfl

/-- A reference to a pool is answered by the pool. -/
theorem Token.hasResource_pool {name : List Char} (written : text.toList = poolOpening ++ name) :
    t.hasResource (some text) = .ok (0 < t.pool (String.ofList name)) := by
  have opened := afterOpening_eq_some_iff.mpr written
  have closed : afterOpening slotOpening text.toList = none := by
    rw [Option.eq_none_iff_forall_ne_some]
    intro rest other
    exact slotOpening_ne rest name ((afterOpening_eq_some_iff.mp other).symm.trans written)
  unfold slotOpening at closed
  unfold poolOpening at opened
  unfold Token.hasResource
  rw [Option.getD_some]
  dsimp only
  rw [closed]
  dsimp only
  rw [opened]

/-- Only references are answered with no. -/
theorem Token.opening_of_hasResource (blocked : t.hasResource (some text) = .ok false) :
    (∃ rest, text.toList = slotOpening ++ rest) ∨ ∃ name, text.toList = poolOpening ++ name := by
  cases slots : afterOpening slotOpening text.toList with
  | some rest => exact .inl ⟨rest, afterOpening_eq_some_iff.mp slots⟩
  | none =>
    cases pool : afterOpening poolOpening text.toList with
    | some name => exact .inr ⟨name, afterOpening_eq_some_iff.mp pool⟩
    | none =>
      unfold slotOpening at slots
      unfold poolOpening at pool
      unfold Token.hasResource at blocked
      rw [Option.getD_some] at blocked
      dsimp only at blocked
      rw [slots] at blocked
      dsimp only at blocked
      rw [pool] at blocked
      cases blocked

/-- A text that names a supply is answered by whether there is any left of it. -/
theorem Token.hasResource_of_named (named : Named text.toList supply) :
    t.hasResource (some text) = .ok (0 < t.left supply) := by
  generalize written : text.toList = s at named
  cases named with
  | @slots level rest numeral short ends =>
    have names : ∀ c ∈ level, Text.isDigitName c = true := fun c member =>
      Text.isDigitName_of_isDigit (numeral.2 c member)
    have read : Text.readNumeral level = .ok (Text.digitsValue level : Nat) := by
      rw [Text.readNumeral_of_names names,
        Text.readDigits_eq_ok_iff.mpr ⟨numeral, short, rfl⟩]
      rfl
    rw [Supply.text, List.append_assoc] at written
    simp only [Token.hasResource_slots written, numeral.takeWhile_append ends, read,
      List.isEmpty_eq_false_iff.mpr numeral.1, List.all_eq_true.mpr names]
    rfl
  | pool name => exact Token.hasResource_pool written

/-- A text is answered with no only if it names a supply of which nothing is left. -/
theorem Token.named_of_hasResource (blocked : t.hasResource (some text) = .ok false) :
    ∃ supply, Named text.toList supply ∧ t.left supply ≤ 0 := by
  rcases Token.opening_of_hasResource blocked with ⟨rest, written⟩ | ⟨name, written⟩
  · rw [Token.hasResource_slots written] at blocked
    dsimp only at blocked
    split at blocked
    · cases blocked
    next numeral =>
    simp only [Bool.or_eq_true, Bool.not_eq_true', not_or, Bool.not_eq_false] at numeral
    rw [Text.readNumeral_of_names (List.all_eq_true.mp numeral.2)] at blocked
    cases read : Text.readDigits (rest.takeWhile (· != '-')) (rest.takeWhile (· != '-')) with
    | error error => rw [read] at blocked; cases blocked
    | ok value =>
      obtain ⟨isNumeral, short, rfl⟩ := Text.readDigits_eq_ok_iff.mp read
      have ends : ∀ c ∈ (rest.dropWhile (· != '-')).head?, c = '-' := by
        intro c first
        simpa using Text.head?_dropWhile (· != '-') rest c first
      have named := Named.slots isNumeral short ends
      rw [Supply.text, List.append_assoc, List.takeWhile_append_dropWhile,
        ← written] at named
      rw [read] at blocked
      exact ⟨_, named, not_lt.mp (of_decide_eq_false (Except.ok.inj blocked))⟩
  · rw [Token.hasResource_pool written] at blocked
    refine ⟨.pool name, written ▸ .pool name, ?_⟩
    exact not_lt.mp (of_decide_eq_false (Except.ok.inj blocked))

/-- Which texts block an action. -/
theorem Token.hasResource_eq_false_iff :
    t.hasResource (some text) = .ok false ↔
      ∃ supply, Named text.toList supply ∧ t.left supply ≤ 0 := by
  constructor
  · exact Token.named_of_hasResource
  · rintro ⟨supply, named, none⟩
    rw [Token.hasResource_of_named named, decide_eq_false (not_lt.mpr none)]

/-- The texts that are not read as the grammar says, where nothing is left: one that goes on behind
its level, one that names a pool without a name, and one with a level of too many digits. -/
inductive Token.IsMisread (t : Token) : List Char → Prop where
  | goesOn {level : List Char} (rest : List Char) (numeral : Text.IsNumeral level)
      (short : level.length ≤ Text.digitLimit) (none : t.left (.slots level) ≤ 0) :
      t.IsMisread ((Supply.slots level).text ++ '-' :: rest)
  | nameless (none : t.left (.pool []) ≤ 0) : t.IsMisread (Supply.pool []).text
  | overlong {level : List Char} (numeral : Text.IsNumeral level)
      (long : Text.digitLimit < level.length) (none : t.left (.slots level) ≤ 0) :
      t.IsMisread (Supply.slots level).text

/-- Whether a text is a reference, by the grammar, to a supply of which a token has nothing left. -/
def Token.Lacks (t : Token) (s : List Char) : Prop :=
  ∃ supply : Supply, supply.IsWellFormed ∧ s = supply.text ∧ t.left supply ≤ 0

/-- A reference to a supply of which nothing is left names it, unless it is misread. -/
theorem Token.Lacks.named {s : List Char} (lacks : t.Lacks s) (wellRead : ¬ t.IsMisread s) :
    ∃ supply, Named s supply ∧ t.left supply ≤ 0 := by
  obtain ⟨supply, wellFormed, rfl, none⟩ := lacks
  refine ⟨supply, ?_, none⟩
  cases supply with
  | slots level =>
    have short : level.length ≤ Text.digitLimit :=
      not_lt.mp fun long => wellRead (.overlong wellFormed long none)
    have named := @Named.slots level [] wellFormed short (by simp)
    rwa [List.append_nil] at named
  | pool name => exact .pool name

/-- A text that names a supply of which nothing is left is a reference to it, unless it is
misread. -/
theorem Token.lacks_of_named {s : List Char} (named : Named s supply)
    (none : t.left supply ≤ 0) (wellRead : ¬ t.IsMisread s) : t.Lacks s := by
  cases named with
  | @slots level rest numeral short ends =>
    cases rest with
    | nil => exact ⟨.slots level, numeral, List.append_nil _, none⟩
    | cons c rest =>
      obtain rfl := ends c rfl
      exact absurd (.goesOn rest numeral short none) wellRead
  | pool name =>
    refine ⟨.pool name, ?_, rfl, none⟩
    rintro rfl
    exact wellRead (.nameless none)

/-- A misread text is taken for a reference that it is not, or not for the one that it is. -/
theorem Token.IsMisread.differs {s : List Char} (misread : t.IsMisread s) :
    ¬ ((∃ supply, Named s supply ∧ t.left supply ≤ 0) ↔ t.Lacks s) := by
  intro same
  cases misread with
  | @goesOn level rest numeral short none =>
    have named : Named ((Supply.slots level).text ++ '-' :: rest) (.slots level) :=
      .slots numeral short (by simp)
    obtain ⟨supply, wellFormed, written, -⟩ := same.mp ⟨_, named, none⟩
    cases supply with
    | slots other =>
      rw [Supply.text, Supply.text, List.append_assoc, List.append_cancel_left_eq] at written
      have digit : Text.isDigit '-' = true := wellFormed.2 '-' (by simp [← written])
      revert digit
      decide
    | pool name =>
      rw [Supply.text, Supply.text, List.append_assoc] at written
      exact slotOpening_ne _ _ written
  | nameless none =>
    obtain ⟨supply, wellFormed, written, -⟩ := same.mp ⟨_, .pool [], none⟩
    cases supply with
    | slots level => exact slotOpening_ne _ _ written.symm
    | pool name => exact wellFormed (List.append_cancel_left written).symm
  | @overlong level numeral long none =>
    obtain ⟨supply, named, -⟩ := same.mpr ⟨.slots level, numeral, rfl, none⟩
    generalize written : (Supply.slots level).text = s at named
    cases named with
    | @slots other rest _ short ends =>
      rw [Supply.text, Supply.text, List.append_assoc, List.append_cancel_left_eq] at written
      cases rest with
      | nil =>
        rw [List.append_nil] at written
        exact absurd (written ▸ long) (not_lt.mpr short)
      | cons c rest =>
        have digit : Text.isDigit c = true := numeral.2 c (by simp [written])
        rw [ends c rfl] at digit
        revert digit
        decide
    | pool name => exact slotOpening_ne _ _ written

/-- An action that asks for a resource is blocked exactly if its text names a supply of which
nothing is left. That is as the grammar says, no text blocking but the references to a supply of
which nothing is left, and all of these, for exactly the texts that are not misread. -/
theorem references_block (t : Token) (text : String) (ledger : Ledger) (range : RangeAnswer) :
    let holds := Condition.verdict ⟨.resourceAvailable, some text⟩ t ledger range
    (holds = false ↔ ∃ supply, Named text.toList supply ∧ t.left supply ≤ 0) ∧
      (∀ supply, Named text.toList supply → holds = decide (0 < t.left supply)) ∧
      ((holds = false ↔ t.Lacks text.toList) ↔ ¬ t.IsMisread text.toList) := by
  intro holds
  have checked : Condition.check ⟨.resourceAvailable, some text⟩ t ledger range =
      t.hasResource (some text) := rfl
  have blocked : holds = false ↔ t.hasResource (some text) = .ok false := by
    change Condition.verdict _ t ledger range = false ↔ _
    rw [Condition.verdict, checked]
    cases t.hasResource (some text) <;> simp
  have law : holds = false ↔ ∃ supply, Named text.toList supply ∧ t.left supply ≤ 0 :=
    blocked.trans Token.hasResource_eq_false_iff
  refine ⟨law, ?_, ?_⟩
  · intro supply named
    change Condition.verdict _ t ledger range = _
    rw [Condition.verdict, checked, Token.hasResource_of_named named]
  · rw [law]
    constructor
    · exact fun same misread => misread.differs same
    · intro wellRead
      constructor
      · rintro ⟨supply, named, none⟩
        exact Token.lacks_of_named named none wellRead
      · exact fun lacks => lacks.named wellRead

end Token

/-- A token that has spent its slots of the first level and has a pool left. -/
def spent : Token :=
  { id := "hero", name := "Hero", spellSlots := [(1, 0)], resources := [("ki", 2)] }

theorem isNumeral_one : Text.IsNumeral ['1'] :=
  ⟨List.cons_ne_nil _ _, List.forall_mem_singleton.mpr (by decide)⟩

/-- The slots that are spent block, and the pool does not. -/
theorem references_block_spent :
    Named "spell-slot-1".toList (.slots ['1']) ∧ Named "resource-ki".toList (.pool ['k', 'i']) ∧
      Condition.verdict ⟨.resourceAvailable, some "spell-slot-1"⟩ spent [] .noChecker = false ∧
      Condition.verdict ⟨.resourceAvailable, some "resource-ki"⟩ spent [] .noChecker = true := by
  have slots : Named "spell-slot-1".toList (.slots ['1']) :=
    @Named.slots ['1'] [] isNumeral_one (by decide) (by simp)
  have pool : Named "resource-ki".toList (.pool ['k', 'i']) := .pool ['k', 'i']
  refine ⟨slots, pool, ?_, ?_⟩
  · exact ((references_block spent "spell-slot-1" [] .noChecker).2.1 _ slots).trans (by decide)
  · exact ((references_block spent "resource-ki" [] .noChecker).2.1 _ pool).trans (by decide)

/-- A reference to slots that goes on behind its level and one to a pool without a name are
malformed, and yet they block. -/
theorem malformed_references_block :
    ¬ spent.Lacks "spell-slot-1-low".toList ∧ ¬ spent.Lacks "resource-".toList ∧
      Condition.verdict ⟨.resourceAvailable, some "spell-slot-1-low"⟩ spent [] .noChecker = false ∧
      Condition.verdict ⟨.resourceAvailable, some "resource-"⟩ spent [] .noChecker = false := by
  have goesOn : spent.IsMisread "spell-slot-1-low".toList :=
    .goesOn "low".toList isNumeral_one (by decide) (by decide)
  have slots : Named "spell-slot-1-low".toList (.slots ['1']) :=
    @Named.slots ['1'] "-low".toList isNumeral_one (by decide) (by simp)
  have nameless : spent.IsMisread "resource-".toList := .nameless (by decide)
  have pool : Named "resource-".toList (.pool []) := .pool []
  refine ⟨fun lacks => ?_, fun lacks => ?_, by decide +kernel, by decide +kernel⟩
  · exact goesOn.differs (iff_of_true ⟨_, slots, by decide⟩ lacks)
  · exact nameless.differs (iff_of_true ⟨_, pool, by decide⟩ lacks)

end TurnScript
