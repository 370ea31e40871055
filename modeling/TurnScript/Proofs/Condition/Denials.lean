import TurnScript.Proofs.Condition.References
import TurnScript.Session.Course

/-!
# Conditions that deny their action

A condition is open to its action unless it is of a known kind and what it asks about has a clear
answer against it. A kind that is not known, a value that is missing or cannot be read, a number of
too many digits, hit points that are too many to be divided, and a range checker that fails all let
the action run. Asking a condition changes nothing, except that the host may note that it was asked
for a range.
-/

namespace TurnScript

variable {t subject : Token} {text : String} {ledger : Ledger} {range : RangeAnswer}
  {value : Option String}

/-! ## Thresholds that are missed -/

open Threshold

theorem Binary64.ofRatio_ne_nan (negative : Bool) (num den : Nat) :
    ofRatio negative num den ≠ .nan := by
  unfold ofRatio
  dsimp only
  repeat' split
  all_goals nofun

/-- A percentage lies somewhere to every number. -/
theorem Threshold.exists_order {hp : Int} {maxHp : Nat} {percent : Binary64}
    (computed : percent? hp maxHp = some percent) (n : Int) :
    ∃ order, percent.compareInt n = some order := by
  obtain ⟨quotient, divided, rfl⟩ := Option.map_eq_some_iff.mp computed
  have number : quotient.scale 100 ≠ .nan := by
    cases quotient with
    | finite negative significand exponent => exact Binary64.ofRatio_ne_nan _ _ _
    | infinite negative => nofun
    | nan =>
      unfold Binary64.quotient? at divided
      split at divided
      · cases divided
      · exact absurd (Option.some.inj divided) (Binary64.ofRatio_ne_nan _ _ _)
  cases scaled : quotient.scale 100 with
  | finite negative significand exponent => exact ⟨_, rfl⟩
  | infinite negative => exact ⟨_, rfl⟩
  | nan => exact absurd scaled number

/-- Whether a token misses the leftmost threshold of a text: it has a maximum of hit points, the
number of the threshold is not too long, and the percentage that is left of them can be computed and
does not lie to that number as the threshold says. -/
def Token.MissesThreshold (t : Token) (text : String) : Prop :=
  0 < t.maxHp ∧ ∃ comparison digits, IsLeftmost text.toList comparison digits ∧
    digits.length ≤ Text.digitLimit ∧ ∃ percent order, percent? t.hp t.maxHp.toNat = some percent ∧
      percent.compareInt (Text.digitsValue digits) = some order ∧ comparison.accepts order = false

theorem Token.meetsThreshold_eq_false_iff :
    t.meetsThreshold (some text) = .ok false ↔ t.MissesThreshold text := by
  constructor
  · intro missed
    have unfolded := missed
    unfold Token.meetsThreshold at missed
    rw [Option.getD_some] at missed
    split at missed
    · cases missed
    next comparison digits found =>
    split at missed
    · cases missed
    next counted =>
    split at missed
    · cases missed
    next threshold read =>
    obtain ⟨numeral, short, rfl⟩ := Text.readDigits_eq_ok_iff.mp read
    split at missed
    · cases missed
    next percent computed =>
    obtain ⟨order, lies⟩ := exists_order computed (Text.digitsValue digits)
    refine ⟨not_le.mp counted, comparison, digits, find?_eq_some_iff.mp found, short, percent,
      order, computed, lies, ?_⟩
    rw [lies] at missed
    exact Except.ok.inj missed
  · rintro ⟨counted, comparison, digits, leftmost, short, percent, order, computed, lies, refused⟩
    have found : (percent? t.hp t.maxHp.toNat).bind (·.compareInt (Text.digitsValue digits)) =
        some order := by
      rw [computed, Option.bind_some, lies]
    rw [Token.meetsThreshold_of_order counted leftmost short found, refused]

/-! ## Outcomes that come first -/

/-- Whether an outcome is the first of its sort, in the order of the keys of a ledger. -/
def Ledger.Leads (ledger : Ledger) (sort : Outcome → Bool) (outcome : Outcome) : Prop :=
  ∃ before id after, ledger = before ++ (id, outcome) :: after ∧ sort outcome = true ∧
    ∀ entry ∈ before, sort entry.2 = false

/-- An outcome that is the first of its sort is of that sort. -/
theorem Ledger.Leads.sorted {sort : Outcome → Bool} {outcome : Outcome}
    (first : ledger.Leads sort outcome) : sort outcome = true := by
  obtain ⟨before, id, after, -, sorted, -⟩ := first
  exact sorted

theorem Ledger.find?_eq_some_iff {sort : Outcome → Bool} {outcome : Outcome} :
    (ledger.find? fun (_, outcome) => sort outcome).map (·.2) = some outcome ↔
      ledger.Leads sort outcome := by
  constructor
  · intro found
    obtain ⟨⟨id, outcome⟩, first, rfl⟩ := Option.map_eq_some_iff.mp found
    obtain ⟨sorted, before, after, rfl, others⟩ := List.find?_eq_some_iff_append.mp first
    refine ⟨before, id, after, rfl, sorted, fun entry member => ?_⟩
    simpa using others entry member
  · rintro ⟨before, id, after, rfl, sorted, others⟩
    rw [List.find?_append, List.find?_eq_none.mpr (by simpa using others)]
    simp [sorted]

/-- Whether an outcome is an attack. -/
def Outcome.isAttack (outcome : Outcome) : Bool :=
  outcome.kind == .attack

/-- Whether an outcome tells of a saving throw. -/
def Outcome.isSave (outcome : Outcome) : Bool :=
  outcome.saved.isSome

/-- A question to the first outcome of a sort is denied by that outcome. -/
theorem Ledger.all_eq_false_iff {sort agrees : Outcome → Bool} :
    ((ledger.find? fun (_, outcome) => sort outcome).map (·.2)).all agrees = false ↔
      ∃ outcome, ledger.Leads sort outcome ∧ agrees outcome = false := by
  simp only [← Ledger.find?_eq_some_iff]
  cases (ledger.find? fun (_, outcome) => sort outcome).map (·.2) <;> simp

/-! ## Denials -/

/-- The ways in which a condition denies its action to a token. -/
inductive Condition.Denies (value : Option String) (subject : Token) (ledger : Ledger)
    (range : RangeAnswer) : ConditionKind → Prop where
  | outOfRange (answered : range = .answered false) :
      Denies value subject ledger range .targetInRange
  | spent {text : String} {supply : Supply} (given : value = some text)
      (named : Supply.Named text.toList supply) (none : subject.left supply ≤ 0) :
      Denies value subject ledger range .resourceAvailable
  | missed {text : String} (given : value = some text) (misses : subject.MissesThreshold text) :
      Denies value subject ledger range .hpThreshold
  | noHit {attack : Outcome} (first : ledger.Leads Outcome.isAttack attack)
      (other : attack.hit ≠ some true) : Denies value subject ledger range .attackHit
  | noMiss {attack : Outcome} (first : ledger.Leads Outcome.isAttack attack)
      (other : attack.hit ≠ some false) : Denies value subject ledger range .attackMiss
  | unsaved {save : Outcome} (first : ledger.Leads Outcome.isSave save)
      (told : save.saved = some false) : Denies value subject ledger range .saveSuccess
  | saved {save : Outcome} (first : ledger.Leads Outcome.isSave save)
      (told : save.saved = some true) : Denies value subject ledger range .saveFailure
  | noAdvantage (flag : subject.advantage = some false) :
      Denies value subject ledger range .hasAdvantage
  | noDisadvantage (flag : subject.disadvantage = some false) :
      Denies value subject ledger range .hasDisadvantage

namespace Condition

/-- A question to the first attack is denied by that attack. -/
theorem firstAttack?_all_eq_false_iff {agrees : Outcome → Bool} :
    ledger.firstAttack?.all agrees = false ↔
      ∃ attack, ledger.Leads Outcome.isAttack attack ∧ agrees attack = false :=
  @Ledger.all_eq_false_iff ledger Outcome.isAttack agrees

/-- A question to the first saving throw is denied by that saving throw. -/
theorem firstSave?_all_eq_false_iff {agrees : Outcome → Bool} :
    ledger.firstSave?.all agrees = false ↔
      ∃ save, ledger.Leads Outcome.isSave save ∧ agrees save = false :=
  @Ledger.all_eq_false_iff ledger Outcome.isSave agrees

/-- Whoever does not agree with a saving throw has the other answer from it. -/
theorem saved_eq_not {save : Outcome} {answer : Bool} (tells : save.isSave = true)
    (other : (save.saved == some answer) = false) : save.saved = some !answer := by
  obtain ⟨told, saved⟩ := Option.isSome_iff_exists.mp tells
  rw [saved] at other ⊢
  cases told <;> cases answer <;> simp_all

/-- In each of these ways the answer is no. -/
theorem Denies.check_eq {kind : ConditionKind} (denies : Denies value subject ledger range kind) :
    check ⟨kind, value⟩ subject ledger range = .ok false := by
  cases denies with
  | outOfRange answered => simp only [check, answered]
  | spent given named none =>
    subst given
    exact Token.hasResource_eq_false_iff.mpr ⟨_, named, none⟩
  | missed given misses =>
    subst given
    exact Token.meetsThreshold_eq_false_iff.mpr misses
  | noHit first other | noMiss first other =>
    simp only [check, Except.ok.injEq]
    exact firstAttack?_all_eq_false_iff.mpr ⟨_, first, beq_eq_false_iff_ne.mpr other⟩
  | unsaved first told | saved first told =>
    simp only [check, Except.ok.injEq]
    exact firstSave?_all_eq_false_iff.mpr ⟨_, first, by rw [told]; rfl⟩
  | noAdvantage flag | noDisadvantage flag => simp only [check, flag, Option.getD_some]

/-- The answer is no only in one of these ways. -/
theorem denies_of_check {kind : ConditionKind}
    (denied : check ⟨kind, value⟩ subject ledger range = .ok false) :
    Denies value subject ledger range kind := by
  cases kind with
  | always | other => cases denied
  | targetInRange =>
    cases range with
    | noChecker | failed => cases denied
    | answered inRange => exact .outOfRange (congrArg _ (Except.ok.inj denied))
  | resourceAvailable =>
    cases value with
    | none => cases denied
    | some text =>
      obtain ⟨supply, named, none⟩ := Token.hasResource_eq_false_iff.mp denied
      exact .spent rfl named none
  | hpThreshold =>
    cases value with
    | none => cases denied
    | some text => exact .missed rfl (Token.meetsThreshold_eq_false_iff.mp denied)
  | attackHit =>
    obtain ⟨attack, first, other⟩ := firstAttack?_all_eq_false_iff.mp (Except.ok.inj denied)
    exact .noHit first (beq_eq_false_iff_ne.mp other)
  | attackMiss =>
    obtain ⟨attack, first, other⟩ := firstAttack?_all_eq_false_iff.mp (Except.ok.inj denied)
    exact .noMiss first (beq_eq_false_iff_ne.mp other)
  | saveSuccess =>
    obtain ⟨save, first, other⟩ := firstSave?_all_eq_false_iff.mp (Except.ok.inj denied)
    exact .unsaved first (saved_eq_not first.sorted other)
  | saveFailure =>
    obtain ⟨save, first, other⟩ := firstSave?_all_eq_false_iff.mp (Except.ok.inj denied)
    exact .saved first (saved_eq_not first.sorted other)
  | hasAdvantage =>
    have answered : subject.advantage.getD true = false := Except.ok.inj denied
    refine .noAdvantage ?_
    cases flag : subject.advantage <;> simp_all
  | hasDisadvantage =>
    have answered : subject.disadvantage.getD true = false := Except.ok.inj denied
    refine .noDisadvantage ?_
    cases flag : subject.disadvantage <;> simp_all

/-- A condition denies its action in the listed ways and in no other. -/
theorem verdict_eq_false_iff (c : Condition) :
    c.verdict subject ledger range = false ↔ Denies c.value subject ledger range c.kind := by
  have answer : c.verdict subject ledger range = false ↔
      c.check subject ledger range = .ok false := by
    unfold verdict
    cases c.check subject ledger range <;> simp
  exact answer.trans ⟨denies_of_check, Denies.check_eq⟩

/-- A condition that does not ask for a range is answered without one. -/
theorem verdict_of_other {c : Condition} (other : c.kind ≠ .targetInRange)
    (range another : RangeAnswer) :
    c.verdict subject ledger range = c.verdict subject ledger another := by
  unfold verdict check
  cases kind : c.kind with
  | targetInRange => exact absurd kind other
  | _ => rfl

end Condition

/-! ## Asking conditions -/

namespace Session

/-- Asking for a range leaves at most the note that it was asked for. -/
theorem askRange_cases (s : Session) (ref : TokenRef) (action : Action) :
    (s.askRange ref action).1 = s ∨
      (s.askRange ref action).1 = s.emit (.rangeAsked (s.token ref).id (some action.id)) := by
  unfold askRange
  cases s.host.range with
  | absent | scene => exact .inl rfl
  | always | failing => exact .inr rfl

/-- What a condition is asked with: the token as it stands, and the answer of the range checker. -/
theorem judge_snd (s : Session) (ref : TokenRef) (ledger : Ledger) (action : Action) :
    (s.judge ref ledger action).2 =
      action.condition.verdict (s.token ref) ledger (s.askRange ref action).2 := by
  have same : (s.askRange ref action).1.token ref = s.token ref := by
    rcases s.askRange_cases ref action with asked | asked
    · rw [asked]
    · rw [asked]
      rfl
  unfold judge
  dsimp only
  split
  · rw [same]
  · next other =>
    exact Condition.verdict_of_other (by simpa [Condition.asksRange] using other) _ _

/-- Asking a condition leaves at most the note that a range was asked for. -/
theorem judge_fst (s : Session) (ref : TokenRef) (ledger : Ledger) (action : Action) :
    (s.judge ref ledger action).1 = s ∨
      (s.judge ref ledger action).1 = s.emit (.rangeAsked (s.token ref).id (some action.id)) := by
  unfold judge
  dsimp only
  split
  · exact s.askRange_cases ref action
  · exact .inl rfl

end Session

/-- A condition denies its action exactly in the listed ways, and what goes wrong with it is none of
them. In a session it is asked about the token as it stands, and all that it leaves is the note that
a range was asked for: the table with the token, and the engine with the ledger, are as before. -/
theorem conditions_fail_open (c : Condition) :
    (∀ subject ledger range,
      (c.verdict subject ledger range = false ↔
          Condition.Denies c.value subject ledger range c.kind) ∧
        ∀ error, c.check subject ledger range = .error error →
          c.verdict subject ledger range = true) ∧
      ∀ (s : Session) ref ledger (action : Action),
        let asking := { action with condition := c }
        let asked := s.judge ref ledger asking
        (asked.2 = false ↔ Condition.Denies c.value (s.token ref) ledger
            (s.askRange ref asking).2 c.kind) ∧
          asked.1.table = s.table ∧ asked.1.engine = s.engine ∧
          (asked.1 = s ∨ asked.1 = s.emit (.rangeAsked (s.token ref).id (some action.id))) := by
  refine ⟨fun subject ledger range => ⟨c.verdict_eq_false_iff, fun error failed => ?_⟩, ?_⟩
  · rw [Condition.verdict, failed]
  · intro s ref ledger action asking asked
    have left := s.judge_fst ref ledger asking
    refine ⟨?_, ?_, ?_, left⟩
    · rw [show asked.2 = _ from s.judge_snd ref ledger asking]
      exact c.verdict_eq_false_iff
    · rcases left with same | noted
      · exact congrArg Session.table same
      · rw [show asked.1 = _ from noted]
        rfl
    · rcases left with same | noted
      · exact congrArg Session.engine same
      · rw [show asked.1 = _ from noted]
        rfl

/-- Hit points that are too many to be divided let an action run that asks for few of them. -/
theorem conditions_fail_open_overflow :
    let giant := injured (10 ^ 400) 1
    Condition.check ⟨.hpThreshold, some "< 50"⟩ giant [] .noChecker = .error .overflow ∧
      Condition.verdict ⟨.hpThreshold, some "< 50"⟩ giant [] .noChecker = true := by
  intro giant
  have overflows : Condition.check ⟨.hpThreshold, some "< 50"⟩ giant [] .noChecker =
      .error .overflow := by decide +kernel
  exact ⟨overflows, ((conditions_fail_open ⟨.hpThreshold, some "< 50"⟩).1 giant [] .noChecker).2
    _ overflows⟩

end TurnScript
