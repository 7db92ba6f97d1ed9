import Plainspoken.Proofs.Correspondence
import Plainspoken.Proofs.Reachability
import Plainspoken.Proofs.Syntax.BrokenSources
import Plainspoken.Proofs.Syntax.Tokens

/-!
# Raising limits

Limits of sizes only decide where reading stops: a word, a text or a comment that ends
before its limit is reached is read in the same way under a larger one.  The limit of
nesting only decides which runs overflow.  So a source that can be built gives the same
program under raised limits, and a run that does not overflow is the same run.

The largest number is not raised here.  Passing it is a failure as well, but the limits
that are compared have it in common.
-/

namespace Plainspoken

open Stepping Evaluation

/-- The second limits are at least the first ones, and the same for numbers. -/
structure Limits.RaisedTo (limits raised : Limits) : Prop where
  maxIdentifier : limits.maxIdentifier ≤ raised.maxIdentifier
  maxText : limits.maxText ≤ raised.maxText
  maxComment : limits.maxComment ≤ raised.maxComment
  maxNumber : raised.maxNumber = limits.maxNumber
  maxDepth : limits.maxDepth ≤ raised.maxDepth

/-! ## Reading tokens -/

namespace Cursor

section Numbers

variable {limits raised : Limits} (sameNumber : raised.maxNumber = limits.maxNumber)

include sameNumber

theorem digitsFrom_congr (radix steps value count : Nat) (cursor : Cursor) :
    digitsFrom raised radix steps value count cursor =
      digitsFrom limits radix steps value count cursor := by
  induction steps generalizing value count cursor with
  | zero => rfl
  | succ steps ih => simp only [digitsFrom, sameNumber, ih]

theorem wholePartFrom_congr (steps : Nat) (whole : Float) (cursor : Cursor) :
    wholePartFrom raised steps whole cursor = wholePartFrom limits steps whole cursor := by
  induction steps generalizing whole cursor with
  | zero => rfl
  | succ steps ih => simp only [wholePartFrom, sameNumber, ih]

/-- Of all limits a number depends on that of numbers only. -/
theorem numberLiteral_congr (cursor : Cursor) :
    cursor.numberLiteral raised = cursor.numberLiteral limits := by
  simp only [numberLiteral, afterLeadingZero, otherBase, decimal, wholePart, fractionAfter,
    digits, digitsFrom_congr sameNumber, wholePartFrom_congr sameNumber]

end Numbers

/-- A word that ends within its bound is the same within a larger one. -/
theorem wordParts_of_le {budget larger : Nat} {cursor : Cursor} (enough : budget ≤ larger)
    (ends : (wordParts budget cursor).1.length < budget) :
    wordParts larger cursor = wordParts budget cursor := by
  induction budget generalizing larger cursor with
  | zero => exact absurd ends (Nat.not_lt_zero _)
  | succ budget ih =>
      obtain ⟨larger, rfl⟩ := Nat.exists_eq_add_of_le' (Nat.le_trans (Nat.le_add_left 1 _) enough)
      have enough' : budget ≤ larger := by omega
      unfold wordParts at ends ⊢
      cases isCurrent : cursor.current with
      | none => rfl
      | some character =>
          simp only [isCurrent] at ends ⊢
          split
          · next isPart =>
            rw [if_pos isPart] at ends
            have endsLater : (wordParts budget cursor.next).1.length < budget := by
              simpa using ends
            rw [ih enough' endsLater]
          · rfl

/-- A body that ends within its bound is the same within a larger one. -/
theorem bodyItems_of_le {body : BodyKind} {budget larger : Nat} {cursor rest : Cursor}
    {characters : List Char} (enough : budget ≤ larger)
    (read : bodyItems body budget cursor = .ok (characters, rest))
    (ends : characters.length < budget) :
    bodyItems body larger cursor = .ok (characters, rest) := by
  induction budget generalizing larger cursor characters with
  | zero => exact absurd ends (Nat.not_lt_zero _)
  | succ budget ih =>
      obtain ⟨larger, rfl⟩ := Nat.exists_eq_add_of_le' (Nat.le_trans (Nat.le_add_left 1 _) enough)
      have enough' : budget ≤ larger := by omega
      unfold bodyItems at read ⊢
      split at read
      · next closed => rw [if_pos closed, read]
      · next within =>
        rw [if_neg within]
        obtain ⟨⟨character, between⟩, itemRead, read⟩ := except_bind_ok_iff.mp read
        obtain ⟨⟨others, last⟩, itemsRead, same⟩ := except_bind_ok_iff.mp read
        cases same
        have othersEnd : others.length < budget := by simpa using ends
        refine except_bind_ok_iff.mpr ⟨_, itemRead, except_bind_ok_iff.mpr ?_⟩
        exact ⟨_, ih enough' itemsRead othersEnd, rfl⟩

section Lexemes

variable {limits raised : Limits} (raises : limits.RaisedTo raised) {cursor : Cursor}

include raises

private theorem word_of_raised {found : Option (Lexeme × Cursor)}
    (read : cursor.word limits = .ok found) : cursor.word raised = .ok found := by
  unfold word at read ⊢
  split at read
  · next starts =>
    dsimp only at read
    split at read
    · cases read
    · next fits =>
      have larger := raises.maxIdentifier
      have ends : (wordParts (limits.maxIdentifier + 1) cursor).1.length <
          limits.maxIdentifier + 1 := by omega
      have same := wordParts_of_le (Nat.add_le_add_right larger 1) ends
      rw [if_pos starts]
      dsimp only
      rw [same, if_neg (by omega)]
      exact read
  · next other =>
    rw [if_neg other]
    exact read

private theorem delimitedBody_of_raised {body : BodyKind} {found : Option (Lexeme × Cursor)}
    (read : cursor.delimitedBody limits body = .ok found) :
    cursor.delimitedBody raised body = .ok found := by
  have larger : body.limit limits ≤ body.limit raised := by
    cases body with
    | text => exact raises.maxText
    | comment => exact raises.maxComment
  unfold delimitedBody at read ⊢
  split at read
  · next opens =>
    obtain ⟨⟨characters, rest⟩, itemsRead, read⟩ := except_bind_ok_iff.mp read
    dsimp only at read
    split at read
    · cases read
    · next fits =>
      have ends : characters.length < body.limit limits + 1 := by omega
      have itemsRead' := bodyItems_of_le (Nat.succ_le_succ larger) itemsRead ends
      rw [if_pos opens]
      refine except_bind_ok_iff.mpr ⟨_, itemsRead', ?_⟩
      dsimp only
      rw [if_neg (by omega)]
      exact read
  · next other =>
    rw [if_neg other]
    exact read

/-- What can be read of a lexeme is read in the same way. -/
theorem lexeme_of_raised {found : Lexeme × Cursor} (read : cursor.lexeme limits = .ok found) :
    cursor.lexeme raised = .ok found := by
  have sameNumber := numberLiteral_congr raises.maxNumber cursor
  obtain ⟨word, wordRead, read⟩ := except_bind_ok_iff.mp read
  refine except_bind_ok_iff.mpr ⟨word, word_of_raised raises wordRead, ?_⟩
  cases word with
  | some word => exact read
  | none =>
      obtain ⟨mark, markRead, read⟩ := except_bind_ok_iff.mp read
      refine except_bind_ok_iff.mpr ⟨mark, markRead, ?_⟩
      cases mark with
      | some mark => exact read
      | none =>
          obtain ⟨number, numberRead, read⟩ := except_bind_ok_iff.mp read
          refine except_bind_ok_iff.mpr ⟨number, sameNumber.trans numberRead, ?_⟩
          cases number with
          | some number => exact read
          | none =>
              obtain ⟨text, textRead, read⟩ := except_bind_ok_iff.mp read
              refine except_bind_ok_iff.mpr ⟨text, delimitedBody_of_raised raises textRead, ?_⟩
              cases text with
              | some text => exact read
              | none =>
                  obtain ⟨comment, commentRead, read⟩ := except_bind_ok_iff.mp read
                  exact except_bind_ok_iff.mpr
                    ⟨comment, delimitedBody_of_raised raises commentRead, read⟩

private theorem nextToken_of_raised {found : Token × Cursor}
    (read : cursor.nextToken limits = .ok found) : cursor.nextToken raised = .ok found := by
  unfold nextToken at read ⊢
  dsimp only at read ⊢
  split at read
  · next ended =>
    rw [if_pos ended]
    exact read
  · next within =>
    rw [if_neg within]
    split at read
    · exact read
    · obtain ⟨lexeme, lexemeRead, same⟩ := except_bind_ok_iff.mp read
      exact except_bind_ok_iff.mpr ⟨lexeme, lexeme_of_raised raises lexemeRead, same⟩

/-- Tokens that can be read up to the end of the source are the same. -/
theorem tokenRun_of_raised {budget : Nat}
    (complete : (cursor.tokenRun limits budget).failure = none) :
    cursor.tokenRun raised budget = cursor.tokenRun limits budget := by
  induction budget generalizing cursor with
  | zero => rfl
  | succ budget ih =>
      unfold tokenRun at complete ⊢
      cases read : cursor.nextToken limits with
      | error error =>
          rw [read] at complete
          cases complete
      | ok next =>
          obtain ⟨token, rest⟩ := next
          rw [nextToken_of_raised raises read]
          simp only [read] at complete ⊢
          split
          · rfl
          · next goesOn =>
            rw [if_neg goesOn] at complete
            rw [ih complete]

end Lexemes

end Cursor

/-- A source that can be read is read as the same program. -/
theorem parse_of_raised {limits raised : Limits} (raises : limits.RaisedTo raised)
    {source : String} {program : Statement} (read : parse limits source = .ok program) :
    parse raised source = .ok program := by
  have same : TokenRun.ofSource raised source = TokenRun.ofSource limits source :=
    Cursor.tokenRun_of_raised raises (TokenRun.failure_eq_none_of_parse read)
  unfold parse TokenStream.ofSource at read ⊢
  rw [same]
  exact read

/-! ## Running -/

/-- An outcome that says that the nesting has reached its limit. -/
def Outcome.Overflows {α : Type} (outcome : Outcome α) : Prop :=
  ∃ span after, outcome = .halted (.failed (.stackOverflow span)) after

theorem enter_apply (maxDepth : Nat) (span : Span) (machine : Machine) :
    (enter maxDepth span : Action Unit) machine =
      if maxDepth ≤ machine.depth + 1 then
        .halted (.failed (.stackOverflow span)) { machine with depth := machine.depth + 1 }
      else .finished () { machine with depth := machine.depth + 1 } := by
  change (if decide (maxDepth ≤ machine.depth + 1) = true then
    (fail (.stackOverflow span) : Action Unit) else pure ())
      { machine with depth := machine.depth + 1 } = _
  simp only [decide_eq_true_eq]
  split <;> rfl

/-- The relation between an action and one that does the same unless the first one
overflows. -/
def overflowing : Correspondence Action Action where
  Related lower higher := ∀ machine, (lower machine).Overflows ∨ lower machine = higher machine
  pure _ _ := .inr rfl
  bind {_ _ first first' second second'} firstRelated secondRelated machine := by
    change (Action.andThen first second machine).Overflows ∨
      Action.andThen first second machine = Action.andThen first' second' machine
    unfold Action.andThen
    rcases firstRelated machine with ⟨span, after, overflows⟩ | same
    · exact .inl ⟨span, after, by rw [overflows]⟩
    · rw [← same]
      cases first machine with
      | finished result between => exact secondRelated result between
      | halted reason after => exact .inr rfl
      | exhausted => exact .inr rfl
  read _ _ := .inr rfl
  update _ _ := .inr rfl
  halt _ _ := .inr rfl
  exhaust _ := .inr rfl
  andFinally {_ action action'} change related machine := by
    change ((action machine).mapMachine change).Overflows ∨
      (action machine).mapMachine change = (action' machine).mapMachine change
    rcases related machine with ⟨span, after, overflows⟩ | same
    · exact .inl ⟨span, change after, by rw [overflows]; rfl⟩
    · exact .inr (by rw [same])

/-- Where a level is below the lower limit it is also below the higher one. -/
theorem overflowing_nests {maxDepth higher : Nat} (raised : maxDepth ≤ higher) :
    overflowing.simulation.Nests maxDepth higher where
  enter span machine := by
    by_cases tooDeep : maxDepth ≤ machine.depth + 1
    · refine .inl ⟨span, { machine with depth := machine.depth + 1 }, ?_⟩
      rw [enter_apply, if_pos tooDeep]
    · refine .inr ?_
      rw [enter_apply, enter_apply, if_neg tooDeep, if_neg (by omega)]
  leave _ := .inr rfl
  exhaust _ := .inr rfl

/-- A statement is executed in the same way under a higher limit of nesting, unless it
overflows. -/
theorem execute_of_raised {maxDepth higher : Nat} (raised : maxDepth ≤ higher) (fuel : Nat)
    (statement : Statement) (machine : Machine) :
    ((execute maxDepth fuel statement : Action Flow) machine).Overflows ∨
      (execute maxDepth fuel statement : Action Flow) machine =
        (execute higher fuel statement : Action Flow) machine :=
  ((overflowing_nests raised).evaluation fuel).2.1 statement trivial machine

/-- A source that builds under some limits builds under raised ones, to the same program.
Its run, if it comes to an end and not to a stack overflow, is the same: it has the same
result and emits the same lines and events. -/
theorem raised_limits_are_conservative {session built : Session} {raised : Limits}
    (raises : session.limits.RaisedTo raised) {source : String}
    (builds : session.build source = (.ok (), built)) :
    { session with limits := raised }.build source = (.ok (), { built with limits := raised }) ∧
    ∀ fuel result after, built.run? fuel = some (result, after) →
      (∀ span place, result ≠ .error ⟨.stackOverflow span, place⟩) →
      { built with limits := raised }.run? fuel =
        some (result, { after with limits := raised }) := by
  obtain ⟨limits, held, machine⟩ := session
  unfold Session.build at builds ⊢
  dsimp only at builds ⊢
  split at builds
  · next program read =>
    cases builds
    rw [parse_of_raised raises read]
    refine ⟨rfl, ?_⟩
    intro fuel result after runs settled
    rcases execute_of_raised raises.maxDepth fuel program machine with
      ⟨span, last, overflows⟩ | same
    · simp only [Session.run?, overflows] at runs
      cases runs
      exact absurd rfl (settled span _)
    · unfold Session.run? at runs ⊢
      dsimp only at runs same ⊢
      rw [← same]
      cases ran : (execute limits.maxDepth fuel program : Action Flow) machine with
      | finished flow last =>
          rw [ran] at runs
          cases runs
          rfl
      | halted reason last =>
          rw [ran] at runs
          cases reason <;> cases runs <;> rfl
      | exhausted =>
          rw [ran] at runs
          cases runs
  · cases builds

/-- A text that is as long as the limit allows is printed under the standard limits just
as it is under narrow ones, although a longer one cannot be built under those. -/
theorem text_at_the_limit_prints_under_standard_limits :
    let narrow : Limits := ⟨5, 3, 0, Limits.largestNumber, 8⟩
    let source := "CALL Print WITH \"abc\" NOW;"
    let longer := "CALL Print WITH \"abcd\" NOW;"
    ((Session.start narrow).build longer).1.isOk = false ∧
      ∃ after, ((Session.start .standard).build source).2.run? 20 = some (.ok (), after) ∧
        after.machine.emitted.lines = ["abc"] := by
  intro narrow source longer
  obtain ⟨built, isBuilt⟩ : ∃ built, built = ((Session.start narrow).build source).2 := ⟨_, rfl⟩
  have accepted : ((Session.start narrow).build source).1.isOk = true := by decide +kernel
  have builds : (Session.start narrow).build source = (.ok (), built) := by
    rw [isBuilt]
    cases found : (Session.start narrow).build source with
    | mk result session =>
        rw [found] at accepted
        cases result with
        | ok => rfl
        | error error => cases accepted
  have prints : (built.run? 20).map (fun ended =>
      (ended.1.isOk, ended.2.machine.emitted.lines)) = some (true, ["abc"]) := by
    rw [isBuilt]
    decide +kernel
  obtain ⟨⟨result, after⟩, runs, same⟩ := Option.map_eq_some_iff.mp prints
  obtain ⟨succeeds, lines⟩ := Prod.mk.inj same
  have raises : (Session.start narrow).limits.RaisedTo .standard :=
    ⟨by decide, by decide, by decide, rfl, by decide⟩
  obtain ⟨buildsRaised, runsRaised⟩ := raised_limits_are_conservative raises builds
  cases result with
  | error error => cases succeeds
  | ok =>
      have settled : ∀ span place, (.ok () : Except RuntimeError Unit) ≠
          .error ⟨.stackOverflow span, place⟩ := by
        intro span place same
        cases same
      refine ⟨by decide +kernel, { after with limits := .standard }, ?_, lines⟩
      have standardBuilds : ((Session.start .standard).build source).2 =
          { built with limits := .standard } := congrArg Prod.snd buildsRaised
      rw [standardBuilds]
      exact runsRaised 20 _ after runs settled

end Plainspoken
