import Plainspoken.Grammar.Statement

/-!
# The tokens of a source

Every token but the end of the source takes at least one character.  So the
reading of a source does not run out of budget: it ends with a failure, or with
the end of the source, which is then the last of the tokens and the only one of
its kind.
-/

namespace Plainspoken

theorem except_bind_ok_iff {ε α β : Type} {first : Except ε α} {second : α → Except ε β}
    {result : β} :
    (first >>= second) = .ok result ↔ ∃ middle, first = .ok middle ∧ second middle = .ok result := by
  cases first with
  | error error => simp [bind, Except.bind]
  | ok middle => simp [bind, Except.bind]

theorem except_map_ok_iff {ε α β : Type} {function : α → β} {first : Except ε α} {result : β} :
    function <$> first = .ok result ↔ ∃ middle, first = .ok middle ∧ function middle = result := by
  cases first with
  | error error => simp [Functor.map, Except.map]
  | ok middle => simp [Functor.map, Except.map]

namespace Cursor

/-- How many characters the cursor has not passed yet. -/
def ahead (cursor : Cursor) : Nat :=
  cursor.remaining.length

/-! ## Moving on -/

@[simp]
theorem ahead_advance (cursor : Cursor) : cursor.advance.ahead = cursor.ahead - 1 :=
  List.length_tail

private theorem ahead_foldl_advance_le (characters : List Char) (cursor : Cursor) :
    (characters.foldl (fun moved _ => moved.advance) cursor).ahead ≤ cursor.ahead := by
  induction characters generalizing cursor with
  | nil => exact Nat.le_refl _
  | cons character characters ih =>
      have later := ih cursor.advance
      rw [ahead_advance] at later
      rw [List.foldl_cons]
      omega

private theorem ahead_advanceWhile_le (cursor : Cursor) (property : Char → Bool) :
    (cursor.advanceWhile property).ahead ≤ cursor.ahead :=
  ahead_foldl_advance_le _ cursor

theorem ahead_next_le (cursor : Cursor) : cursor.next.ahead ≤ cursor.ahead - 1 := by
  rw [← ahead_advance]
  exact ahead_advanceWhile_le _ _

theorem ahead_nextInNumber_le (cursor : Cursor) :
    cursor.nextInNumber.ahead ≤ cursor.ahead - 1 := by
  rw [← ahead_advance]
  exact ahead_advanceWhile_le _ _

theorem ahead_pos_of_current {cursor : Cursor} {character : Char}
    (isCurrent : cursor.current = some character) : 0 < cursor.ahead := by
  unfold current at isCurrent
  unfold ahead
  cases remaining : cursor.remaining with
  | nil => simp [remaining] at isCurrent
  | cons first others => simp

theorem ahead_pos_of_isOn {cursor : Cursor} {character : Char}
    (isOn : cursor.isOn character = true) : 0 < cursor.ahead :=
  ahead_pos_of_current (eq_of_beq isOn)

theorem exists_current_of_isOnClass {cursor : Cursor} {property : Char → Bool}
    (isOn : cursor.isOnClass property = true) :
    ∃ character, cursor.current = some character ∧ property character = true :=
  Option.any_eq_true _ _ |>.mp isOn

private theorem ahead_skipBlanksUpTo_le (steps : Nat) (cursor : Cursor) :
    (skipBlanksUpTo steps cursor).ahead ≤ cursor.ahead := by
  induction steps generalizing cursor with
  | zero => exact Nat.le_refl _
  | succ steps ih =>
      unfold skipBlanksUpTo
      split
      · have later := ih cursor.next
        have moved := ahead_next_le cursor
        omega
      · exact Nat.le_refl _

private theorem ahead_passLineBreak_lt {cursor : Cursor} {form : LineBreak}
    (present : 0 < cursor.ahead) :
    (cursor.passLineBreak form).ahead < cursor.ahead := by
  have once := ahead_next_le cursor
  have twice := ahead_next_le cursor.advance
  rw [ahead_advance] at twice
  unfold passLineBreak
  split
  · change cursor.advance.next.ahead < cursor.ahead
    omega
  · change cursor.next.ahead < cursor.ahead
    omega

private theorem ahead_lt_of_takeLineBreak? {cursor rest : Cursor}
    (taken : cursor.takeLineBreak? = some rest) : rest.ahead < cursor.ahead := by
  unfold takeLineBreak? at taken
  split at taken
  · split at taken
    · cases taken
      rename_i onForm
      have isOn := (Bool.and_eq_true _ _ ▸ onForm).1
      exact ahead_passLineBreak_lt (ahead_pos_of_isOn isOn)
    · cases taken
  · obtain ⟨form, here, rfl⟩ := Option.map_eq_some_iff.mp taken
    apply ahead_passLineBreak_lt
    cases isCurrent : cursor.current with
    | none => simp [lineBreakHere?, isCurrent] at here
    | some character => exact ahead_pos_of_current isCurrent

/-! ## Marks and words -/

private theorem ahead_le_of_longerMark {cursor rest : Cursor} {last : Char}
    {longer shorter mark : Mark}
    (read : cursor.longerMark last longer shorter = (mark, rest)) : rest.ahead ≤ cursor.ahead := by
  have moved := ahead_next_le cursor
  unfold longerMark at read
  split at read <;> cases read <;> omega

private theorem ahead_le_of_equality {cursor rest : Cursor} {longer shorter mark : Mark}
    (read : cursor.equality longer shorter = .ok (some (mark, rest))) :
    rest.ahead ≤ cursor.ahead := by
  have moved := ahead_next_le cursor
  unfold equality at read
  split at read
  · have later := ahead_le_of_longerMark (Option.some.inj (Except.ok.inj read))
    omega
  · cases read

private theorem ahead_lt_of_mark {cursor rest : Cursor} {mark : Mark}
    (read : cursor.mark = .ok (some (mark, rest))) : rest.ahead < cursor.ahead := by
  cases isCurrent : cursor.current with
  | none => simp [Cursor.mark, isCurrent] at read
  | some first =>
      have present := ahead_pos_of_current isCurrent
      have moved := ahead_next_le cursor
      suffices later : rest.ahead ≤ cursor.next.ahead by omega
      simp only [Cursor.mark, isCurrent] at read
      split at read
      · cases read
        exact Nat.le_refl _
      · split at read
        · exact ahead_le_of_longerMark (Option.some.inj (Except.ok.inj read))
        · exact ahead_le_of_longerMark (Option.some.inj (Except.ok.inj read))
        · exact ahead_le_of_longerMark (Option.some.inj (Except.ok.inj read))
        · exact ahead_le_of_longerMark (Option.some.inj (Except.ok.inj read))
        · exact ahead_le_of_equality read
        · exact ahead_le_of_equality read
        · cases read

private theorem ahead_wordParts_le (budget : Nat) (cursor : Cursor) :
    (wordParts budget cursor).2.ahead ≤ cursor.ahead := by
  induction budget generalizing cursor with
  | zero => exact Nat.le_refl _
  | succ budget ih =>
      unfold wordParts
      split
      · exact Nat.le_refl _
      · split
        · have later := ih cursor.next
          have moved := ahead_next_le cursor
          simp only
          omega
        · exact Nat.le_refl _

private theorem ahead_lt_of_word {limits : Limits} {cursor rest : Cursor} {lexeme : Lexeme}
    (read : cursor.word limits = .ok (some (lexeme, rest))) :
    rest.ahead < cursor.ahead := by
  unfold Cursor.word at read
  split at read
  · rename_i onStart
    obtain ⟨first, isCurrent, isStart⟩ := exists_current_of_isOnClass onStart
    have present := ahead_pos_of_current isCurrent
    have isPart : isWordPart first = true := by simp [isWordPart, isStart]
    have moved := ahead_next_le cursor
    have later := ahead_wordParts_le limits.maxIdentifier cursor.next
    simp only [wordParts, isCurrent, isPart, if_true] at read
    split at read
    · cases read
    · cases read
      omega
  · cases read

/-! ## Numbers -/

private theorem ahead_digitsFrom_le {limits : Limits} {radix steps value count : Nat}
    {cursor : Cursor}
    {run : DigitRun} (read : digitsFrom limits radix steps value count cursor = .ok run) :
    run.rest.ahead ≤ cursor.ahead := by
  induction steps generalizing value count cursor with
  | zero =>
      cases read
      exact Nat.le_refl _
  | succ steps ih =>
      unfold digitsFrom at read
      split at read
      · cases read
        exact Nat.le_refl _
      · dsimp only at read
        split at read
        · cases read
        · have later := ih read
          have moved := ahead_nextInNumber_le cursor
          omega

private theorem ahead_wholePartFrom_le {limits : Limits} {steps : Nat} {whole : Float}
    {cursor : Cursor}
    {result : Float × Cursor} (read : wholePartFrom limits steps whole cursor = .ok result) :
    result.2.ahead ≤ cursor.ahead := by
  induction steps generalizing whole cursor with
  | zero =>
      cases read
      exact Nat.le_refl _
  | succ steps ih =>
      unfold wholePartFrom at read
      split at read
      · cases read
        exact Nat.le_refl _
      · dsimp only at read
        split at read
        · cases read
        · have later := ih read
          have moved := ahead_nextInNumber_le cursor
          omega

private theorem digitValue?_ten_of_isDigit {character : Char} (isDigit : character.isDigit = true) :
    (digitValue? 10 character).isSome = true := by
  have upper : character.toNat ≤ 57 := by
    simp only [Char.isDigit, Bool.and_eq_true, decide_eq_true_eq] at isDigit
    exact isDigit.2
  have small : character.toNat - 48 < 10 := by
    omega
  simp [digitValue?, isDigit, small]

private theorem ahead_wholePart_lt {limits : Limits} {cursor : Cursor} {result : Float × Cursor}
    (onDigit : cursor.isOnClass Char.isDigit = true)
    (read : wholePart limits cursor = .ok result) : result.2.ahead < cursor.ahead := by
  obtain ⟨first, isCurrent, isDigit⟩ := exists_current_of_isOnClass onDigit
  have present := ahead_pos_of_current isCurrent
  -- The first round is made, since a digit stands there; the others only move on.
  obtain ⟨digit, value⟩ := Option.isSome_iff_exists.mp (digitValue?_ten_of_isDigit isDigit)
  obtain ⟨steps, steps_eq⟩ := Nat.exists_eq_succ_of_ne_zero (Nat.ne_of_gt present)
  have moved := ahead_nextInNumber_le cursor
  unfold wholePart at read
  rw [show cursor.remaining.length = steps + 1 from steps_eq] at read
  simp only [wholePartFrom, isCurrent, Option.bind_some, value] at read
  split at read
  · cases read
  · have later := ahead_wholePartFrom_le read
    omega

private theorem ahead_fractionAfter_le {limits : Limits} {whole : Float} {cursor : Cursor}
    {result : Float × Cursor} (read : fractionAfter limits whole cursor = .ok (some result)) :
    result.2.ahead ≤ cursor.ahead := by
  unfold fractionAfter at read
  split at read
  · dsimp only at read
    split at read
    · obtain ⟨run, digitsRead, ended⟩ := except_bind_ok_iff.mp read
      cases ended
      have later := ahead_digitsFrom_le digitsRead
      have moved := ahead_nextInNumber_le cursor
      simp only
      omega
    · cases read
  · cases read

private theorem ahead_otherBase_le {limits : Limits} {cursor : Cursor} {result : Float × Cursor}
    (read : otherBase limits cursor = .ok (some result)) : result.2.ahead ≤ cursor.ahead := by
  unfold otherBase at read
  split at read
  · cases read
  · dsimp only at read
    split at read
    · obtain ⟨run, digitsRead, ended⟩ := except_bind_ok_iff.mp read
      cases ended
      have later := ahead_digitsFrom_le digitsRead
      have moved := ahead_nextInNumber_le cursor
      simp only
      omega
    · cases read

private theorem ahead_afterLeadingZero_le {limits : Limits} {cursor : Cursor}
    {result : Float × Cursor}
    (read : afterLeadingZero limits cursor = .ok result) : result.2.ahead ≤ cursor.ahead := by
  obtain ⟨other, otherRead, read⟩ := except_bind_ok_iff.mp read
  cases other with
  | some other =>
      cases read
      exact ahead_otherBase_le otherRead
  | none =>
      obtain ⟨fraction, fractionRead, read⟩ := except_bind_ok_iff.mp read
      cases fraction with
      | some fraction =>
          cases read
          exact ahead_fractionAfter_le fractionRead
      | none =>
          dsimp only at read
          split at read
          · cases read
          · split at read
            · cases read
            · cases read
              exact Nat.le_refl _

private theorem ahead_decimal_lt {limits : Limits} {cursor : Cursor} {result : Float × Cursor}
    (onDigit : cursor.isOnClass Char.isDigit = true)
    (read : decimal limits cursor = .ok result) : result.2.ahead < cursor.ahead := by
  obtain ⟨⟨whole, rest⟩, wholeRead, read⟩ := except_bind_ok_iff.mp read
  obtain ⟨fraction, fractionRead, ended⟩ := except_bind_ok_iff.mp read
  have moved := ahead_wholePart_lt onDigit wholeRead
  cases ended
  cases fraction with
  | none => exact moved
  | some fraction => exact Nat.lt_of_le_of_lt (ahead_fractionAfter_le fractionRead) moved

private theorem ahead_lt_of_numberLiteral {limits : Limits} {cursor rest : Cursor} {number : Float}
    (read : cursor.numberLiteral limits = .ok (some (number, rest))) :
    rest.ahead < cursor.ahead := by
  unfold numberLiteral at read
  split at read
  · rename_i onZero
    have present := ahead_pos_of_isOn onZero
    have moved := ahead_nextInNumber_le cursor
    obtain ⟨middle, zeroRead, same⟩ := except_map_ok_iff.mp read
    cases same
    have later : rest.ahead ≤ cursor.nextInNumber.ahead := ahead_afterLeadingZero_le zeroRead
    omega
  · split at read
    · rename_i onDigit
      obtain ⟨middle, decimalRead, same⟩ := except_map_ok_iff.mp read
      cases same
      exact ahead_decimal_lt onDigit decimalRead
    · cases read

/-! ## Texts and comments -/

private theorem ahead_bodyItem_le {body : BodyKind} {cursor : Cursor} {result : Char × Cursor}
    (read : bodyItem body cursor = .ok result) : result.2.ahead ≤ cursor.ahead := by
  have moved := ahead_advance cursor
  have twice := ahead_advance cursor.advance
  unfold bodyItem at read
  split at read
  · cases read
  · dsimp only at read
    split at read
    · cases read
    · split at read
      · cases read
      · cases read
        simp only [nextInBody]
        omega
  · cases read
    simp only [nextInBody]
    omega

private theorem ahead_bodyItems_le {body : BodyKind} {budget : Nat} {cursor : Cursor}
    {result : List Char × Cursor} (read : bodyItems body budget cursor = .ok result) :
    result.2.ahead ≤ cursor.ahead := by
  induction budget generalizing cursor result with
  | zero =>
      cases read
      exact Nat.le_refl _
  | succ budget ih =>
      unfold bodyItems at read
      split at read
      · cases read
        exact Nat.le_refl _
      · obtain ⟨⟨character, rest⟩, itemRead, read⟩ := except_bind_ok_iff.mp read
        obtain ⟨⟨characters, rest'⟩, itemsRead, ended⟩ := except_bind_ok_iff.mp read
        cases ended
        have moved := ahead_bodyItem_le itemRead
        have later := ih itemsRead
        exact Nat.le_trans later moved

private theorem ahead_lt_of_delimitedBody {limits : Limits} {body : BodyKind} {cursor rest : Cursor}
    {lexeme : Lexeme} (read : cursor.delimitedBody limits body = .ok (some (lexeme, rest))) :
    rest.ahead < cursor.ahead := by
  unfold delimitedBody at read
  split at read
  · rename_i isOn
    have present := ahead_pos_of_isOn isOn
    obtain ⟨⟨characters, rest'⟩, itemsRead, read⟩ := except_bind_ok_iff.mp read
    have moved := ahead_bodyItems_le itemsRead
    have closed := ahead_next_le rest'
    dsimp only at read
    split at read
    · cases read
    · cases read
      simp only [nextInBody, ahead_advance] at moved
      omega
  · cases read

/-! ## Tokens -/

theorem ahead_lt_of_lexeme {limits : Limits} {cursor rest : Cursor} {found : Lexeme}
    (read : cursor.lexeme limits = .ok (found, rest)) :
    rest.ahead < cursor.ahead := by
  obtain ⟨word, wordRead, read⟩ := except_bind_ok_iff.mp read
  cases word with
  | some word =>
      cases read
      exact ahead_lt_of_word wordRead
  | none =>
      obtain ⟨mark, markRead, read⟩ := except_bind_ok_iff.mp read
      cases mark with
      | some mark =>
          cases read
          exact ahead_lt_of_mark markRead
      | none =>
          obtain ⟨number, numberRead, read⟩ := except_bind_ok_iff.mp read
          cases number with
          | some number =>
              cases read
              exact ahead_lt_of_numberLiteral numberRead
          | none =>
              obtain ⟨text, textRead, read⟩ := except_bind_ok_iff.mp read
              cases text with
              | some text =>
                  cases read
                  exact ahead_lt_of_delimitedBody textRead
              | none =>
                  obtain ⟨comment, commentRead, read⟩ := except_bind_ok_iff.mp read
                  cases comment with
                  | some comment =>
                      cases read
                      exact ahead_lt_of_delimitedBody commentRead
                  | none => cases read

/-- Every token but the end of the source takes a character. -/
theorem ahead_lt_of_nextToken {limits : Limits} {cursor rest : Cursor} {token : Token}
    (read : cursor.nextToken limits = .ok (token, rest)) :
    token.lexeme = .endOfSource ∨ rest.ahead < cursor.ahead := by
  have skipped : cursor.restartBuffer.skipBlanks.ahead ≤ cursor.ahead :=
    ahead_skipBlanksUpTo_le _ cursor.restartBuffer
  unfold nextToken at read
  dsimp only at read
  split at read
  · cases read
    exact .inl rfl
  · split at read
    · rename_i taken
      cases read
      exact .inr (Nat.lt_of_lt_of_le (ahead_lt_of_takeLineBreak? taken) skipped)
    · obtain ⟨⟨found, rest'⟩, lexemeRead, ended⟩ := except_bind_ok_iff.mp read
      cases ended
      exact .inr (Nat.lt_of_lt_of_le (ahead_lt_of_lexeme lexemeRead) skipped)

theorem tokenRun_ends {limits : Limits} {budget : Nat} {cursor : Cursor}
    (enough : cursor.ahead < budget) (complete : (cursor.tokenRun limits budget).failure = none) :
    ∃ body ending, (cursor.tokenRun limits budget).tokens = body ++ [ending] ∧
      ending.lexeme = .endOfSource ∧ ∀ token ∈ body, token.lexeme ≠ .endOfSource := by
  induction budget generalizing cursor with
  | zero => omega
  | succ budget ih =>
      unfold tokenRun at complete ⊢
      cases read : cursor.nextToken limits with
      | error error => simp [read] at complete
      | ok next =>
          obtain ⟨token, rest⟩ := next
          simp only [read] at complete ⊢
          by_cases ends : token.lexeme = .endOfSource
          · rw [if_pos ends]
            exact ⟨[], token, rfl, ends, by simp⟩
          · rw [if_neg ends] at complete ⊢
            have moved := (ahead_lt_of_nextToken read).resolve_left ends
            obtain ⟨body, ending, split, isEnd, others⟩ := ih (by omega) complete
            refine ⟨token :: body, ending, by simp [split], isEnd, ?_⟩
            intro other member
            rcases List.mem_cons.mp member with rfl | member
            · exact ends
            · exact others other member

end Cursor

theorem Token.kind_eq_endOfSource_iff {token : Token} :
    token.kind = .endOfSource ↔ token.lexeme = .endOfSource := by
  obtain ⟨lexeme, place⟩ := token
  cases lexeme <;> simp [Token.kind, Lexeme.kind]

/-- The tokens of a source end with its end, which no other of them is. -/
theorem TokenRun.ofSource_ends {limits : Limits} {source : String}
    (complete : (TokenRun.ofSource limits source).failure = none) :
    ∃ body ending, (TokenRun.ofSource limits source).tokens = body ++ [ending] ∧
      ending.lexeme = .endOfSource ∧ ∀ token ∈ body, token.lexeme ≠ .endOfSource :=
  Cursor.tokenRun_ends (Nat.lt_succ_self _) complete

/-- What the grammar sees of a source are its significant tokens up to the
end. -/
theorem TokenStream.ofSource_of_tokenize {limits : Limits} {source : String}
    {tokens : List Token} (read : tokenize limits source = .ok tokens) :
    ∃ body ending place, TokenStream.ofSource limits source = ⟨body, .endOfSource place⟩ ∧
      tokens.filter (·.lexeme.isSignificant) = body ++ [ending] ∧ ending.kind = .endOfSource ∧
        ∀ token ∈ body, token.kind ≠ .endOfSource := by
  have complete : (TokenRun.ofSource limits source).failure = none ∧
      (TokenRun.ofSource limits source).tokens = tokens := by
    unfold tokenize TokenRun.complete at read
    split at read
    · cases read
      exact ⟨‹_›, rfl⟩
    · cases read
  obtain ⟨failure, rfl⟩ := complete
  obtain ⟨body, ending, split, isEnd, others⟩ := TokenRun.ofSource_ends failure
  have seen : (TokenRun.ofSource limits source).tokens.filter
      (fun token => token.lexeme.isSignificant && token.kind != .endOfSource) =
        body.filter (·.lexeme.isSignificant) := by
    have isEnd' := Token.kind_eq_endOfSource_iff.mpr isEnd
    have same : body.filter (fun token => token.lexeme.isSignificant &&
        token.kind != .endOfSource) = body.filter (·.lexeme.isSignificant) := by
      apply List.filter_congr
      intro token member
      have other := others token member
      rw [Ne, ← Token.kind_eq_endOfSource_iff] at other
      simp [other]
    simp [split, same, isEnd']
  refine ⟨body.filter (·.lexeme.isSignificant), ending,
    (TokenRun.ofSource limits source).finalPosition, ?_, ?_, ?_, ?_⟩
  · unfold TokenStream.ofSource TokenStream.ofRun
    rw [seen, failure]
  · simp [split, isEnd, Lexeme.isSignificant]
  · exact Token.kind_eq_endOfSource_iff.mpr isEnd
  · intro token member
    rw [Ne, Token.kind_eq_endOfSource_iff]
    exact others token (List.mem_filter.mp member).1

end Plainspoken
