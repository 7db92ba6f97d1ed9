import Plainspoken.Proofs.Source.Braces

/-!
# Reading moves forward

A source is read token by token, until its end or a failure is met.  Every token but the end
of the source takes a character, and the next one is looked for behind it.  So the reading
ends, whatever the source, and tokens stand in the order of their positions.

Lines and columns grow together with the characters passed: a character passed is a column
more, a line break a line more.  A column may stand to the left of the one before it, but then
on a later line.
-/

namespace Plainspoken

namespace Span

/-- One position stands before another: on an earlier line, or further left on the same one. -/
def Before (left right : Span) : Prop :=
  left.line < right.line ∨ left.line = right.line ∧ left.column < right.column

instance : DecidableRel Before :=
  fun left right =>
    inferInstanceAs (Decidable (left.line < right.line ∨
      left.line = right.line ∧ left.column < right.column))

theorem Before.trans {first second third : Span} (left : first.Before second)
    (right : second.Before third) : first.Before third := by
  unfold Before at *
  omega

end Span

namespace Cursor

variable {limits : Limits} {cursor between rest : Cursor}

theorem passes_next {character : Char} (isCurrent : cursor.current = some character) :
    ∃ taken, cursor.Passes taken cursor.next :=
  ⟨_, (Passes.advance isCurrent).trans (.advanceWhile _ isBrace)⟩

theorem passes_skipBlanks (cursor : Cursor) :
    ∃ taken, cursor.Passes taken cursor.skipBlanks := by
  unfold Cursor.skipBlanks
  generalize cursor.remaining.length = steps
  induction steps generalizing cursor with
  | zero => exact ⟨[], .refl cursor⟩
  | succ steps ih =>
      unfold skipBlanksUpTo
      split
      · next isBlank =>
        obtain ⟨character, isCurrent, -⟩ :=
          exists_current_of_isOnClass (Bool.and_eq_true_iff.mp isBlank).1
        obtain ⟨first, passesFirst⟩ := passes_next isCurrent
        obtain ⟨others, passesOthers⟩ := ih cursor.next
        exact ⟨first ++ others, passesFirst.trans passesOthers⟩
      · exact ⟨[], .refl cursor⟩

/-! ## Places further on -/

/-- The cursor gets to another place by moving on: nothing is read again, and what stands
before the first place stands before the second. -/
structure Reaches (cursor rest : Cursor) : Prop where
  remaining : rest.remaining <:+ cursor.remaining
  position : ∀ span : Span, span.Before cursor.position → span.Before rest.position

namespace Reaches

theorem trans (first : cursor.Reaches between) (second : between.Reaches rest) :
    cursor.Reaches rest :=
  ⟨second.remaining.trans first.remaining, fun span before =>
    second.position span (first.position span before)⟩

theorem of_passes {characters : List Char} (passes : cursor.Passes characters rest) :
    cursor.Reaches rest where
  remaining := ⟨characters, passes.split.symm⟩
  position := by
    intro span before
    rw [passes.position_eq]
    unfold Span.Before at *
    dsimp only
    omega

theorem skipBlanks (cursor : Cursor) : cursor.Reaches cursor.skipBlanks := by
  obtain ⟨blanks, passes⟩ := passes_skipBlanks cursor
  exact of_passes passes

/-- Between two tokens only blanks are passed. -/
theorem blanks (cursor : Cursor) : cursor.Reaches cursor.restartBuffer.skipBlanks where
  remaining := (skipBlanks cursor.restartBuffer).remaining
  position := (skipBlanks cursor.restartBuffer).position

end Reaches

end Cursor

/-! ## One token -/

/-- What a token that is not the end of the source does: it takes the characters between its
cursors, at least one, and the place behind it is further on than its own. -/
structure Finding.Consumes (finding : Finding) : Prop where
  taken : finding.characters ≠ []
  split : finding.start.remaining = finding.characters ++ finding.rest.remaining
  before : finding.token.span.Before finding.rest.position

theorem Finding.Consumes.of_split {finding : Finding} (passed : List Char)
    (taken : passed ≠ [])
    (split : finding.start.remaining = passed ++ finding.rest.remaining)
    (before : finding.token.span.Before finding.rest.position) : finding.Consumes := by
  have same := Finding.characters_eq split
  exact ⟨same ▸ taken, same ▸ split, before⟩

namespace Cursor

section NextToken

variable {limits : Limits} {cursor rest : Cursor} {token : Token}

theorem consumes_of_nextToken (read : cursor.nextToken limits = .ok (token, rest))
    (notEnd : token.lexeme ≠ .endOfSource) :
    Finding.Consumes ⟨cursor.restartBuffer.skipBlanks, token, rest⟩ := by
  obtain ⟨place, ⟨ends, -⟩ | ⟨-, taken⟩ | ⟨-, -, lexemeRead⟩⟩ := nextToken_cases read
  · exact absurd ends notEnd
  · obtain ⟨form, -, isOn, rfl⟩ := takeLineBreak?_cases taken
    obtain ⟨braces, between, passes, -, behind⟩ := passes_of_passLineBreak isOn
    refine .of_split (form.characters ++ braces) (by simp [LineBreak.characters]) ?_ ?_
    · rw [behind]
      exact passes.split
    · rw [behind]
      have line : between.position.line = token.span.line := by rw [passes.position_eq, place]
      exact .inl (by simp [restartBuffer, line])
  · obtain ⟨characters, passes, -⟩ := passes_of_lexeme lexemeRead
    have moved := ahead_lt_of_lexeme lexemeRead
    have some : 0 < characters.length := by
      have length := congrArg List.length passes.split
      rw [List.length_append] at length
      unfold ahead at moved
      omega
    refine .of_split characters (List.length_pos_iff.mp some) passes.split (.inr ?_)
    rw [passes.position_eq, place]
    exact ⟨rfl, Nat.lt_add_of_pos_right some⟩

/-- A token that is not the end of the source takes the reading further on. -/
theorem reaches_of_nextToken (read : cursor.nextToken limits = .ok (token, rest))
    (notEnd : token.lexeme ≠ .endOfSource) : cursor.Reaches rest := by
  have consumes := consumes_of_nextToken read notEnd
  have place := (nextToken_cases read).1
  refine (Reaches.blanks cursor).trans ⟨⟨_, consumes.split.symm⟩, fun span before => ?_⟩
  rw [← place] at before
  exact before.trans consumes.before

end NextToken

/-! ## The whole reading -/

/-- The reading from the cursor on, for as long as it takes: the tokens found, and the failure
that ends it, if there is one. -/
inductive Scans (limits : Limits) : Cursor → List Finding → Option LexicalError → Prop where
  | fails {cursor error} : cursor.nextToken limits = .error error →
      Scans limits cursor [] (some error)
  | ends {cursor token rest} : cursor.nextToken limits = .ok (token, rest) →
      token.lexeme = .endOfSource →
      Scans limits cursor [⟨cursor.restartBuffer.skipBlanks, token, rest⟩] none
  | goesOn {cursor token rest found failure} : cursor.nextToken limits = .ok (token, rest) →
      token.lexeme ≠ .endOfSource → Scans limits rest found failure →
      Scans limits cursor (⟨cursor.restartBuffer.skipBlanks, token, rest⟩ :: found) failure

/-- A budget of one token more than there are characters ahead is enough. -/
theorem scans_findings {limits : Limits} {budget : Nat} {cursor : Cursor}
    (enough : cursor.ahead < budget) :
    cursor.Scans limits (cursor.findings limits budget)
      (cursor.tokenRun limits budget).failure := by
  induction budget generalizing cursor with
  | zero => omega
  | succ budget ih =>
      unfold findings tokenRun
      cases read : cursor.nextToken limits with
      | error error => exact .fails read
      | ok next =>
          obtain ⟨token, rest⟩ := next
          by_cases isEnd : token.lexeme = .endOfSource
          · simp only [isEnd, if_true]
            exact .ends read isEnd
          · simp only [isEnd, if_false]
            have moved := (ahead_lt_of_nextToken read).resolve_left isEnd
            exact .goesOn read isEnd (ih (by omega))

/-- The budget with which a source is read is enough. -/
theorem scans_ofSource (limits : Limits) (source : String) :
    (ofSource source).Scans limits (Plainspoken.findings limits source)
      (TokenRun.ofSource limits source).failure :=
  scans_findings (Nat.lt_succ_self _)

namespace Scans

variable {limits : Limits} {cursor : Cursor} {found : List Finding}
  {failure : Option LexicalError}

/-- A token for each character ahead at most, and the end of the source. -/
theorem length_le (scans : cursor.Scans limits found failure) :
    found.length ≤ cursor.ahead + 1 := by
  induction scans with
  | fails => exact Nat.zero_le _
  | ends => exact Nat.le_add_left 1 _
  | goesOn read notEnd _ ih =>
      have moved := (ahead_lt_of_nextToken read).resolve_left notEnd
      rw [List.length_cons]
      omega

theorem consumes (scans : cursor.Scans limits found failure) :
    ∀ finding ∈ found, finding.token.lexeme ≠ .endOfSource → finding.Consumes := by
  induction scans with
  | fails => simp
  | ends _ isEnd => simpa using fun notEnd => absurd isEnd notEnd
  | goesOn read notEnd _ ih =>
      exact List.forall_mem_cons.mpr ⟨fun _ => consumes_of_nextToken read notEnd, ih⟩

/-- Every token stands where its own cursor does, and the reading gets there. -/
theorem reaches (scans : cursor.Scans limits found failure) :
    ∀ finding ∈ found,
      finding.token.span = finding.start.position ∧ cursor.Reaches finding.start := by
  induction scans with
  | fails => simp
  | ends read _ => simpa using ⟨(nextToken_cases read).1, Reaches.blanks _⟩
  | goesOn read notEnd _ ih =>
      refine List.forall_mem_cons.mpr ⟨⟨(nextToken_cases read).1, .blanks _⟩, ?_⟩
      intro finding member
      obtain ⟨place, later⟩ := ih finding member
      exact ⟨place, (reaches_of_nextToken read notEnd).trans later⟩

/-- Every token is found behind all those before it. -/
theorem pairwise_apart (scans : cursor.Scans limits found failure) :
    found.Pairwise fun earlier later => later.start.remaining <:+ earlier.rest.remaining := by
  induction scans with
  | fails => exact .nil
  | ends => exact List.pairwise_singleton _ _
  | goesOn _ _ later ih =>
      exact List.pairwise_cons.mpr
        ⟨fun finding member => (later.reaches finding member).2.remaining, ih⟩

theorem pairwise_before (scans : cursor.Scans limits found failure) :
    found.Pairwise fun earlier later => earlier.token.span.Before later.token.span := by
  induction scans with
  | fails => exact .nil
  | ends => exact List.pairwise_singleton _ _
  | goesOn read notEnd later ih =>
      refine List.pairwise_cons.mpr ⟨fun finding member => ?_, ih⟩
      obtain ⟨place, behind⟩ := later.reaches finding member
      rw [place]
      exact behind.position _ (consumes_of_nextToken read notEnd).before

end Scans

/-! ## The loops within a token -/

section Loops

variable {limits : Limits} {cursor : Cursor}

theorem digitsFrom_stops {radix steps value count : Nat} {run : DigitRun}
    (enough : cursor.ahead ≤ steps)
    (read : cursor.digitsFrom limits radix steps value count = .ok run) :
    run.rest.current.bind (digitValue? radix) = none := by
  induction steps generalizing cursor value count with
  | zero =>
      cases read
      rw [current_of_ended (List.eq_nil_of_length_eq_zero (Nat.le_zero.mp enough))]
      rfl
  | succ steps ih =>
      unfold digitsFrom at read
      split at read
      · next noDigit =>
        cases read
        exact noDigit
      · have moved := ahead_nextInNumber_le cursor
        dsimp only at read
        split at read
        · cases read
        · exact ih (by omega) read

theorem wholePartFrom_stops {steps : Nat} {whole : Float} {result : Float × Cursor}
    (enough : cursor.ahead ≤ steps)
    (read : cursor.wholePartFrom limits steps whole = .ok result) :
    result.2.current.bind (digitValue? 10) = none := by
  induction steps generalizing cursor whole with
  | zero =>
      cases read
      rw [current_of_ended (List.eq_nil_of_length_eq_zero (Nat.le_zero.mp enough))]
      rfl
  | succ steps ih =>
      unfold wholePartFrom at read
      split at read
      · next noDigit =>
        cases read
        exact noDigit
      · have moved := ahead_nextInNumber_le cursor
        dsimp only at read
        split at read
        · cases read
        · exact ih (by omega) read

/-- The loops that run within a token until they meet something else: blanks are skipped, and
digits are read, up to where none follows.  Words and bodies are bounded by the limits. -/
structure LoopsEnd (limits : Limits) (cursor : Cursor) : Prop where
  blanks : (cursor.skipBlanks.isOnClass Character.isWhiteSpace &&
    !cursor.skipBlanks.isOnSpecial) = false
  digits : ∀ radix run, cursor.digits limits radix = .ok run →
    run.rest.current.bind (digitValue? radix) = none
  wholePart : ∀ whole rest, cursor.wholePart limits = .ok (whole, rest) →
    rest.current.bind (digitValue? 10) = none

theorem loopsEnd (limits : Limits) (cursor : Cursor) : cursor.LoopsEnd limits where
  blanks := skipBlanks_stops cursor
  digits _ _ read := digitsFrom_stops (Nat.le_refl _) read
  wholePart _ _ read := wholePartFrom_stops (Nat.le_refl _) read

end Loops

private theorem ahead_ofSource_le (source : String) : (ofSource source).ahead ≤ source.length := by
  obtain ⟨start, remaining, -, -, characters, passes, -⟩ := ofSource_crosses source
  have length := congrArg List.length passes.split
  rw [remaining, List.length_append, String.length_toList] at length
  unfold ahead
  omega

end Cursor

/-- Every source is read in finitely many tokens, whatever the limits.  Where it is read to its
end, there are at most as many tokens as characters and the end of the source, which comes once
and last; every other token takes a character behind those of the tokens before it; and the
positions of the tokens increase. -/
theorem tokenizing_ends_and_moves_forward (limits : Limits) (source : String) :
    (∀ cursor : Cursor, cursor.LoopsEnd limits) ∧
    (Cursor.ofSource source).Scans limits (findings limits source)
      (TokenRun.ofSource limits source).failure ∧
    ∀ tokens, tokenize limits source = .ok tokens →
      (findings limits source).map Finding.token = tokens ∧
      tokens.length ≤ source.length + 1 ∧
      (∃ others place, tokens = others ++ [⟨.endOfSource, place⟩] ∧
        ∀ token ∈ others, token.lexeme ≠ .endOfSource) ∧
      (∀ finding ∈ findings limits source, finding.token.lexeme ≠ .endOfSource →
        finding.Consumes) ∧
      (findings limits source).Pairwise
        (fun earlier later => later.start.remaining <:+ earlier.rest.remaining) ∧
      tokens.Pairwise fun earlier later => earlier.span.Before later.span := by
  have scans : (Cursor.ofSource source).Scans limits (findings limits source)
      (TokenRun.ofSource limits source).failure :=
    Cursor.scans_findings (Nat.lt_succ_self _)
  refine ⟨Cursor.loopsEnd limits, scans, fun tokens read => ?_⟩
  have complete := tokenize_eq_ok_iff.mp read
  have same : (findings limits source).map Finding.token = tokens := by
    have all : (TokenRun.ofSource limits source).tokens = tokens := by rw [complete]
    exact (map_token_findings limits _ _).trans all
  obtain ⟨others, ending, split, isEnd, different⟩ :=
    @TokenRun.ofSource_ends limits source (by rw [complete])
  refine ⟨same, ?_, ⟨others, ending.span, ?_, different⟩, scans.consumes, scans.pairwise_apart, ?_⟩
  · have few := scans.length_le
    have characters := Cursor.ahead_ofSource_le source
    rw [← same, List.length_map]
    omega
  · rw [complete] at split
    rw [← isEnd]
    exact split
  · rw [← same]
    exact List.pairwise_map.mpr scans.pairwise_before

/-- A carriage return is white space once lines end with line feeds, and a text over two lines
takes columns of the line it begins on. -/
theorem tokens_on_two_lines_move_forward :
    tokenize .standard "\x7bA\x7d \n\x7d\r(\"\n\"-" = .ok [
      ⟨.identifier "A", ⟨1, 2⟩⟩, ⟨.lineBreak, ⟨1, 5⟩⟩, ⟨.mark .openParenthesis, ⟨2, 2⟩⟩,
      ⟨.text "\n", ⟨2, 3⟩⟩, ⟨.mark .minus, ⟨2, 6⟩⟩, ⟨.endOfSource, ⟨2, 7⟩⟩] ∧
    [⟨1, 2⟩, ⟨1, 5⟩, ⟨2, 2⟩, ⟨2, 3⟩, ⟨2, 6⟩, ⟨2, 7⟩].Pairwise Span.Before := by
  have read : tokenize .standard "\x7bA\x7d \n\x7d\r(\"\n\"-" = .ok [
      ⟨.identifier "A", ⟨1, 2⟩⟩, ⟨.lineBreak, ⟨1, 5⟩⟩, ⟨.mark .openParenthesis, ⟨2, 2⟩⟩,
      ⟨.text "\n", ⟨2, 3⟩⟩, ⟨.mark .minus, ⟨2, 6⟩⟩, ⟨.endOfSource, ⟨2, 7⟩⟩] := by
    decide +kernel
  obtain ⟨-, -, forward⟩ :=
    tokenizing_ends_and_moves_forward .standard "\x7bA\x7d \n\x7d\r(\"\n\"-"
  obtain ⟨-, -, -, -, -, increasing⟩ := forward _ read
  exact ⟨read, List.pairwise_map.mpr increasing⟩

end Plainspoken
