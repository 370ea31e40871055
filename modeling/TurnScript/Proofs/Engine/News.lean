import TurnScript.Condition.Verdict
import TurnScript.Engine.Run

/-!
# News of a run

A run is told of what happens around it: how things stand when it asks a condition, what became
of a dispatch, that a pause is over, how a notice was taken. News says more than a reply, which
is all that the run itself sees: it names the action that the news is about, and it tells a
notice that failed from a pause that cannot be timed.

One relation says everything that a run can do on a piece of news that it waits for, guards
included. Every later fact about a run is a case analysis of that relation, so none of them
opens the transition function again.
-/

namespace TurnScript

/-- A piece of news for a run. -/
inductive News where
  /-- The condition of an action is asked; the token is as given, and so is what the range
  checker answers. -/
  | judged (action : Action) (token : Token) (range : RangeAnswer)
  /-- A notice has been taken. -/
  | noted
  /-- Whoever was to take a notice failed to. -/
  | failed (mishap : Mishap)
  /-- The dispatch of an action has come to an outcome. -/
  | played (action : Action) (outcome : Outcome)
  /-- A pause is over. -/
  | rested
  /-- A pause has more seconds than can be timed. -/
  | overran
  deriving Repr, DecidableEq

/-- What a run with a ledger makes of a piece of news. -/
def News.reply (ledger : Ledger) : News → Reply
  | judged action token range => .verdict (action.condition.verdict token ledger range)
  | noted => .noted
  | failed mishap => .raised mishap
  | played _ outcome => .outcome outcome
  | rested => .paused
  | overran => .raised .overlong

/-- What others can see a run do. It does so as it comes to a stage; pauses and the end of a run
are not seen. -/
inductive Deed where
  | asks (action : Action)
  | skips (action : Action)
  | plays (action : Action)
  | reports
  | complains (mishap : Mishap)
  deriving Repr, DecidableEq

/-- The action whose dispatch a deed begins. -/
def Deed.played? : Deed → Option Action
  | plays action => some action
  | _ => none

namespace Run

/-- Whether a run waits for a piece of news. -/
def awaits (r : Run) : News → Bool
  | .judged action _ _ => match r.stage with
    | .asking asked _ => action = asked
    | _ => false
  | .noted | .failed _ => match r.stage with
    | .skipping .. | .reporting | .failing _ => true
    | _ => false
  | .played action _ => r.played? = some action
  | .rested | .overran => match r.stage with
    | .pacing .. | .settling _ => true
    | _ => false

/-- The run after a piece of news. -/
def hear (r : Run) (active : Bool) (news : News) : Run :=
  r.tell active (news.reply r.ledger)

/-- Whether a run waits for the verdict on a condition. -/
def isAsking (r : Run) : Bool :=
  match r.stage with
  | .asking .. => true
  | _ => false

/-- What a run does at its stage, if it can be seen. -/
def deed? (r : Run) : Option Deed :=
  match r.stage with
  | .asking action _ => some (.asks action)
  | .skipping action _ => some (.skips action)
  | .acting action _ | .branching action _ => some (.plays action)
  | .reporting => some .reports
  | .failing mishap => some (.complains mishap)
  | .pacing .. | .settling _ | .ended _ => none

/-- The branch target that follows an action with an outcome, if the script has it. -/
def target? (script : List Action) (action : Action) (outcome : Outcome) : Option Action :=
  (action.branchAfter outcome).bind (findAction? script)

/-- All that a run can do on news that it waits for. `active` says whether it may go on. -/
inductive Moves (r : Run) (active : Bool) : News → Run → Prop where
  | accept {action rest token range} (standing : r.stage = .asking action rest)
      (holds : action.condition.verdict token r.ledger range = true) :
      Moves r active (.judged action token range) { r with stage := .acting action rest }
  | decline {action rest token range} (standing : r.stage = .asking action rest)
      (fails : action.condition.verdict token r.ledger range = false) :
      Moves r active (.judged action token range)
        { r with skipped := r.skipped + 1, stage := .skipping action rest }
  | passBy {action rest} (standing : r.stage = .skipping action rest) :
      Moves r active .noted (r.walk active rest)
  | score {action rest} (outcome : Outcome) (standing : r.stage = .acting action rest) :
      Moves r active (.played action outcome)
        { r.record action outcome with stage := .pacing action outcome rest }
  | turnAside {action outcome rest target} (standing : r.stage = .pacing action outcome rest)
      (going : active = true) (found : target? r.script action outcome = some target) :
      Moves r active .rested { r with stage := .branching target rest }
  | goOn {action outcome rest} (standing : r.stage = .pacing action outcome rest)
      (straight : active = true → target? r.script action outcome = none) :
      Moves r active .rested (r.walk active rest)
  | scoreAside {target rest} (outcome : Outcome) (standing : r.stage = .branching target rest) :
      Moves r active (.played target outcome)
        { r.record target outcome with stage := .settling rest }
  | comeBack {rest} (standing : r.stage = .settling rest) :
      Moves r active .rested (r.walk active rest)
  | finish (standing : r.stage = .reporting) :
      Moves r active .noted { r with stage := .ended (.finished false) }
  | giveUp {mishap} (standing : r.stage = .failing mishap) :
      Moves r active .noted { r with stage := .ended (.raised mishap) }
  | collapse (mishap : Mishap) {earlier} (standing : r.stage = .failing earlier) :
      Moves r active (.failed mishap) { r with stage := .ended (.raised mishap) }
  | stumble (mishap : Mishap) (noticing : (∃ action rest, r.stage = .skipping action rest) ∨
      r.stage = .reporting) :
      Moves r active (.failed mishap) { r with stage := .failing mishap }
  | overrun (pausing : (∃ action outcome rest, r.stage = .pacing action outcome rest) ∨
      ∃ rest, r.stage = .settling rest) :
      Moves r active .overran { r with stage := .failing .overlong }

/-- The dispatch that a run does at its stage is the one that it waits for. -/
theorem bind_deed? (r : Run) : r.deed?.bind Deed.played? = r.played? := by
  cases standing : r.stage <;> simp [deed?, played?, Deed.played?, standing]

/-- A run that may not go on closes, whatever is left to walk. -/
@[simp] theorem walk_false (r : Run) (rest : List Action) : r.walk false rest = r.close := by
  cases rest <;> rfl

/-- The run takes every piece of news that it waits for in one of the listed ways. -/
theorem moves_of_awaits {r : Run} {news : News} (active : Bool) (awaited : r.awaits news) :
    r.Moves active news (r.hear active news) := by
  cases news with
  | judged action token range =>
    cases standing : r.stage <;> simp [awaits, standing] at awaited
    subst awaited
    cases verdict : action.condition.verdict token r.ledger range with
    | true =>
      simpa [hear, tell, News.reply, standing, verdict] using Moves.accept standing verdict
    | false =>
      simpa [hear, tell, News.reply, standing, verdict] using Moves.decline standing verdict
  | noted =>
    cases standing : r.stage <;> simp [awaits, standing] at awaited
    case skipping => simpa [hear, tell, News.reply, standing] using Moves.passBy standing
    case reporting => simpa [hear, tell, News.reply, standing] using Moves.finish standing
    case failing => simpa [hear, tell, News.reply, standing] using Moves.giveUp standing
  | failed mishap =>
    cases standing : r.stage <;> simp [awaits, standing] at awaited
    case skipping action rest =>
      simpa [hear, tell, News.reply, standing] using Moves.stumble mishap (.inl ⟨_, _, standing⟩)
    case reporting =>
      simpa [hear, tell, News.reply, standing] using Moves.stumble mishap (.inr standing)
    case failing =>
      simpa [hear, tell, News.reply, standing] using Moves.collapse mishap standing
  | played action outcome =>
    cases standing : r.stage <;> simp [awaits, played?, standing] at awaited
    all_goals subst awaited
    case acting => simpa [hear, tell, News.reply, standing] using Moves.score outcome standing
    case branching =>
      simpa [hear, tell, News.reply, standing] using Moves.scoreAside outcome standing
  | rested =>
    cases standing : r.stage <;> simp [awaits, standing] at awaited
    case pacing action outcome rest =>
      cases active with
      | false =>
        have straight : r.Moves false .rested (r.walk false rest) :=
          .goOn standing (fun going => by cases going)
        simpa [hear, tell, News.reply, standing, branch] using straight
      | true =>
        cases found : target? r.script action outcome with
        | none =>
          have straight : r.Moves true .rested (r.walk true rest) :=
            .goOn standing fun _ => found
          simp only [target?] at found
          simpa [hear, tell, News.reply, standing, branch, found] using straight
        | some target =>
          have aside : r.Moves true .rested { r with stage := .branching target rest } :=
            .turnAside standing rfl found
          simp only [target?] at found
          simpa [hear, tell, News.reply, standing, branch, found] using aside
    case settling rest =>
      have back : r.Moves active .rested (r.walk active rest) := .comeBack standing
      cases active <;> simpa [hear, tell, News.reply, standing] using back
  | overran =>
    cases standing : r.stage <;> simp [awaits, standing] at awaited
    case pacing =>
      simpa [hear, tell, News.reply, standing] using Moves.overrun (.inl ⟨_, _, _, standing⟩)
    case settling =>
      simpa [hear, tell, News.reply, standing] using Moves.overrun (.inr ⟨_, standing⟩)

/-- Walking on takes up the next action of a run that may go on, and closes any other. -/
theorem walk_cases (r : Run) (active : Bool) (rest : List Action) :
    (∃ action ahead, rest = action :: ahead ∧ active = true ∧
      r.walk active rest = { r with stage := .asking action ahead }) ∨
    ((rest = [] ∨ active = false) ∧ r.walk active rest = r.close) := by
  cases rest with
  | nil => exact .inr ⟨.inl rfl, rfl⟩
  | cons action ahead =>
    cases active with
    | false => exact .inr ⟨.inr rfl, rfl⟩
    | true => exact .inl ⟨action, ahead, rfl, rfl, rfl⟩

/-- A run begins with its first condition, or with its report if there is nothing to run. -/
theorem begin_cases (script : List Action) :
    (∃ action ahead, runnable script = action :: ahead ∧
      begin script = { script, stage := .asking action ahead }) ∨
    (runnable script = [] ∧ begin script = { script, stage := .reporting }) := by
  rcases walk_cases { script, stage := .reporting } true (runnable script) with
    ⟨action, ahead, listed, _, walked⟩ | ⟨ended, walked⟩
  · exact .inl ⟨action, ahead, listed, walked⟩
  · have empty : runnable script = [] := by simpa using ended
    exact .inr ⟨empty, walked⟩

/-- Closing changes nothing but the stage. -/
theorem close_keeps (r : Run) : r.close = { r with stage := r.close.stage } := by
  simp [close]

/-- Walking on changes nothing but the stage. -/
theorem walk_keeps (r : Run) (active : Bool) (rest : List Action) :
    r.walk active rest = { r with stage := (r.walk active rest).stage } := by
  rcases r.walk_cases active rest with ⟨action, ahead, _, _, walked⟩ | ⟨_, walked⟩
  · rw [walked]
  · rw [walked]
    exact r.close_keeps

end Run

/-- A ledger in which dispatches have been recorded, one after the other. -/
def Ledger.recordAll (ledger : Ledger) (plays : List (Action × Outcome)) : Ledger :=
  plays.foldl (fun ledger (action, outcome) => ledger.record action.id outcome) ledger

/-- The dispatch that a piece of news concludes. -/
def News.play? : News → Option (Action × Outcome)
  | played action outcome => some (action, outcome)
  | _ => none

/-- How things stand at a condition, as a piece of news has it. -/
structure Sight where
  token : Token
  range : RangeAnswer
  deriving Repr, DecidableEq

/-- How things stand at the condition that a piece of news is about. -/
def News.sight? : News → Option Sight
  | judged _ token range => some ⟨token, range⟩
  | _ => none

namespace Run

variable {r after : Run} {active : Bool} {news : News}

/-- A run never changes its script nor the marks of an emergency stop. -/
theorem Moves.keeps (moves : r.Moves active news after) :
    after.script = r.script ∧ after.stopped = r.stopped ∧ after.unpaced = r.unpaced := by
  cases moves with
  | passBy | goOn | comeBack => rw [walk_keeps]; exact ⟨rfl, rfl, rfl⟩
  | _ => exact ⟨rfl, rfl, rfl⟩

/-- A run records the dispatch that the news concludes, and counts it; other news leave the
ledger and the count as they are. -/
theorem Moves.records (moves : r.Moves active news after) :
    after.ledger = r.ledger.recordAll news.play?.toList ∧
    after.executed = r.executed + news.play?.toList.length := by
  cases moves with
  | passBy | goOn | comeBack => rw [walk_keeps]; exact ⟨rfl, rfl⟩
  | _ => exact ⟨rfl, rfl⟩

/-- A dispatch is under way exactly if the news are about its outcome. -/
theorem Moves.played?_eq (moves : r.Moves active news after) :
    r.played? = news.play?.map (·.1) := by
  cases moves with
  | stumble mishap noticing =>
    rcases noticing with ⟨action, rest, standing⟩ | standing <;>
      simp [played?, standing, News.play?]
  | overrun pausing =>
    rcases pausing with ⟨action, outcome, rest, standing⟩ | ⟨rest, standing⟩ <;>
      simp [played?, standing, News.play?]
  | accept standing | decline standing | passBy standing | score _ standing
  | turnAside standing | goOn standing | scoreAside _ standing | comeBack standing
  | finish standing | giveUp standing | collapse _ standing =>
    simp [played?, standing, News.play?]

/-- All news that a run waits for bring it nearer to its end. -/
theorem Moves.rank_lt (moves : r.Moves active news after) : after.rank < r.rank := by
  cases moves with
  | @passBy _ rest standing | @goOn _ _ rest standing _ | @comeBack rest standing =>
    have walked : (r.walk active rest).rank ≤ 6 * rest.length + 2 := r.rank_walk_le active rest
    simp only [rank, standing] at walked ⊢
    omega
  | stumble mishap noticing =>
    rcases noticing with ⟨action, rest, standing⟩ | standing <;> simp [rank, standing]
  | overrun pausing =>
    rcases pausing with ⟨action, outcome, rest, standing⟩ | ⟨rest, standing⟩ <;>
      simp [rank, standing]
  | accept standing | decline standing | score _ standing | scoreAside _ standing
  | turnAside standing | finish standing | giveUp standing | collapse _ standing =>
    simp [rank, standing]

/-- A run that is not over waits for some news. -/
theorem exists_awaits (unfinished : r.isOver = false) : ∃ news, r.awaits news := by
  cases standing : r.stage with
  | asking action rest => exact ⟨.judged action default .noChecker, by simp [awaits, standing]⟩
  | skipping | reporting | failing => exact ⟨.noted, by simp [awaits, standing]⟩
  | acting action rest | branching action rest =>
    exact ⟨.played action default, by simp [awaits, played?, standing]⟩
  | pacing | settling => exact ⟨.rested, by simp [awaits, standing]⟩
  | ended => simp [isOver, standing] at unfinished

end Run
end TurnScript
