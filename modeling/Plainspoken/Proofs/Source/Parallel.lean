import Plainspoken.Proofs.Source.Findings

/-!
# Two sources side by side

Two sources that differ only in what a reader does not look at are read alike.  A relation
between their places is parallel when related cursors stand on the same character, unless
both could break a line, and when moving on over a plain character keeps them related.

Words, marks and numbers are made of plain characters.  So two parallel cursors find the same
word, mark or number, or they fail for the same reason.
-/

namespace Plainspoken

/-- Two readings that both succeed, with related results, or both fail, for the same reason. -/
inductive Agrees {α β : Type} (related : α → β → Prop) :
    Except LexicalError α → Except LexicalError β → Prop where
  | ok {left : α} {right : β} : related left right → Agrees related (.ok left) (.ok right)
  | error {left right : LexicalError} : left.cause = right.cause →
      Agrees related (.error left) (.error right)

namespace Agrees

variable {α β γ δ : Type} {related : α → β → Prop} {relatedThen : γ → δ → Prop}
variable {left : Except LexicalError α} {right : Except LexicalError β}

theorem bind {leftThen : α → Except LexicalError γ} {rightThen : β → Except LexicalError δ}
    (first : Agrees related left right)
    (second : ∀ a b, related a b → Agrees relatedThen (leftThen a) (rightThen b)) :
    Agrees relatedThen (left >>= leftThen) (right >>= rightThen) := by
  cases first with
  | ok isRelated => exact second _ _ isRelated
  | error same => exact .error same

theorem map {leftMap : α → γ} {rightMap : β → δ} (first : Agrees related left right)
    (second : ∀ a b, related a b → relatedThen (leftMap a) (rightMap b)) :
    Agrees relatedThen (leftMap <$> left) (rightMap <$> right) := by
  cases first with
  | ok isRelated => exact .ok (second _ _ isRelated)
  | error same => exact .error same

theorem exists_of_ok {result : α} (agrees : Agrees related left right) (isOk : left = .ok result) :
    ∃ other, right = .ok other ∧ related result other := by
  subst isOk
  cases agrees with
  | ok isRelated => exact ⟨_, rfl, isRelated⟩

end Agrees

namespace Cursor

/-- Whether a character neither breaks lines nor encloses a text or a comment. -/
def isPlain (character : Char) : Bool :=
  !breaksLine character && character != '"' && character != '#'

/-- A property that no character has which is not plain. -/
theorem isPlain_of_class {property : Char → Bool} {character : Char}
    (holds : property character = true) (carriageReturn : property '\r' = false)
    (lineFeed : property '\n' = false) (separator : property recordSeparator = false)
    (quote : property '"' = false) (hash : property '#' = false) : isPlain character = true := by
  have unbroken := breaksLine_eq_false_of_class holds carriageReturn lineFeed separator
  have notQuote : character ≠ '"' := by
    rintro rfl
    rw [quote] at holds
    cases holds
  have notHash : character ≠ '#' := by
    rintro rfl
    rw [hash] at holds
    cases holds
  simp [isPlain, unbroken, notQuote, notHash]

private theorem isPlain_of_isWordPart {character : Char} (isPart : isWordPart character = true) :
    isPlain character = true :=
  isPlain_of_class isPart (by decide) (by decide) (by decide) (by decide) (by decide)

private theorem isPlain_of_digitValue? {character : Char} {radix digit : Nat}
    (value : digitValue? radix character = some digit) : isPlain character = true := by
  have unbroken : breaksLine character = false := by
    by_contra breaks
    rw [digitValue?_eq_none_of_breaksLine radix (by simpa using breaks)] at value
    cases value
  have notQuote : character ≠ '"' := by
    rintro rfl
    cases value
  have notHash : character ≠ '#' := by
    rintro rfl
    cases value
  simp [isPlain, unbroken, notQuote, notHash]

/-- A relation between the places of two sources under which reading goes the same way. -/
structure Parallel (related : Cursor → Cursor → Prop) : Prop where
  current : ∀ {left right}, related left right → left.current = right.current ∨
    ∃ first second, left.current = some first ∧ right.current = some second ∧
      breaksLine first = true ∧ breaksLine second = true
  next : ∀ {left right character}, related left right → left.current = some character →
    isPlain character = true → related left.next right.next
  nextInNumber : ∀ {left right character}, related left right → left.current = some character →
    isPlain character = true → related left.nextInNumber right.nextInNumber

/-- The same result, with related cursors behind it. -/
def SameThen {α : Type} (related : Cursor → Cursor → Prop) (left right : α × Cursor) : Prop :=
  left.1 = right.1 ∧ related left.2 right.2

section Found

variable {α : Type} {related : Cursor → Cursor → Prop}
variable {left right : Except LexicalError (Option (α × Cursor))}

private theorem ok_none_of_agrees (agrees : Agrees (Option.Rel (SameThen related)) left right)
    (absent : left = .ok none) : right = .ok none := by
  obtain ⟨other, isOk, same⟩ := agrees.exists_of_ok absent
  cases same
  exact isOk

private theorem ok_some_of_agrees {found : α} {rest : Cursor}
    (agrees : Agrees (Option.Rel (SameThen related)) left right)
    (present : left = .ok (some (found, rest))) :
    ∃ otherRest, right = .ok (some (found, otherRest)) ∧ related rest otherRest := by
  obtain ⟨other, isOk, same⟩ := agrees.exists_of_ok present
  cases same with
  | @some _ result sameResult =>
      obtain ⟨rfl, restRelated⟩ := sameResult
      exact ⟨result.2, isOk, restRelated⟩

end Found

namespace Parallel

variable {related : Cursor → Cursor → Prop} {left right : Cursor} {limits : Limits}

/-- What is not said of characters that break lines is said alike of both. -/
theorem bind_eq {α : Type} {function : Char → Option α} (parallel : Parallel related)
    (isRelated : related left right)
    (silent : ∀ character, breaksLine character = true → function character = none) :
    left.current.bind function = right.current.bind function := by
  obtain same | ⟨first, second, isFirst, isSecond, firstBreaks, secondBreaks⟩ :=
    parallel.current isRelated
  · rw [same]
  · rw [isFirst, isSecond, Option.bind_some, Option.bind_some, silent first firstBreaks,
      silent second secondBreaks]

theorem isOnClass_eq (parallel : Parallel related) (property : Char → Bool)
    (isRelated : related left right)
    (silent : ∀ character, property character = true → breaksLine character = false) :
    left.isOnClass property = right.isOnClass property := by
  have never : ∀ character, breaksLine character = true → property character = false := by
    intro character breaks
    by_contra holds
    rw [silent character (by simpa using holds)] at breaks
    cases breaks
  obtain same | ⟨first, second, isFirst, isSecond, firstBreaks, secondBreaks⟩ :=
    parallel.current isRelated
  · rw [isOnClass, isOnClass, same]
  · simp [isOnClass, isFirst, isSecond, never first firstBreaks, never second secondBreaks]

theorem isOn_eq (parallel : Parallel related) (character : Char) (isRelated : related left right)
    (unbroken : breaksLine character = false) : left.isOn character = right.isOn character := by
  have asClass (cursor : Cursor) : cursor.isOn character = cursor.isOnClass (· == character) := by
    unfold isOn isOnClass
    cases cursor.current <;> simp
  rw [asClass left, asClass right]
  apply parallel.isOnClass_eq _ isRelated
  intro other isCharacter
  rw [eq_of_beq isCharacter]
  exact unbroken

/-! ## Words and marks -/

theorem wordParts (parallel : Parallel related) (isRelated : related left right) (budget : Nat) :
    SameThen related (left.wordParts budget) (right.wordParts budget) := by
  induction budget generalizing left right with
  | zero => exact ⟨rfl, isRelated⟩
  | succ budget ih =>
      unfold Cursor.wordParts
      obtain same | ⟨first, second, isFirst, isSecond, firstBreaks, secondBreaks⟩ :=
        parallel.current isRelated
      · rw [← same]
        cases isCurrent : left.current with
        | none => exact ⟨rfl, isRelated⟩
        | some character =>
            by_cases isPart : isWordPart character = true
            · obtain ⟨sameParts, restRelated⟩ :=
                ih (parallel.next isRelated isCurrent (isPlain_of_isWordPart isPart))
              simp only [isPart, if_true]
              exact ⟨congrArg (character :: ·) sameParts, restRelated⟩
            · simp only [isPart]
              exact ⟨rfl, isRelated⟩
      · have notPart {character : Char} (breaks : breaksLine character = true) :
            isWordPart character = false := by
          by_contra isPart
          rw [breaksLine_eq_false_of_isWordPart (by simpa using isPart)] at breaks
          cases breaks
        simp only [isFirst, isSecond, notPart firstBreaks, notPart secondBreaks]
        exact ⟨rfl, isRelated⟩

theorem word (parallel : Parallel related) (isRelated : related left right) :
    Agrees (Option.Rel (SameThen related)) (left.word limits) (right.word limits) := by
  have sameStart := parallel.isOnClass_eq isWordStart isRelated (by
    intro character isStart
    exact breaksLine_eq_false_of_isWordPart (by simp [isWordPart, isStart]))
  obtain ⟨sameParts, restRelated⟩ := parallel.wordParts isRelated (limits.maxIdentifier + 1)
  unfold Cursor.word
  rw [sameStart]
  split
  · simp only [sameParts]
    split
    · exact .error rfl
    · exact .ok (.some ⟨rfl, restRelated⟩)
  · exact .ok .none

theorem longerMark {last : Char} {longer shorter : Mark} (parallel : Parallel related)
    (isRelated : related left right) (plain : isPlain last = true) :
    SameThen related (left.longerMark last longer shorter)
      (right.longerMark last longer shorter) := by
  have unbroken : breaksLine last = false := by
    simp only [isPlain, Bool.and_eq_true, Bool.not_eq_true'] at plain
    exact plain.1.1
  unfold Cursor.longerMark
  rw [parallel.isOn_eq last isRelated unbroken]
  split
  · next isOn =>
    rw [← parallel.isOn_eq last isRelated unbroken] at isOn
    exact ⟨rfl, parallel.next isRelated (eq_of_beq isOn) plain⟩
  · exact ⟨rfl, isRelated⟩

theorem equality {longer shorter : Mark} (parallel : Parallel related)
    (isRelated : related left right) :
    Agrees (Option.Rel (SameThen related)) (left.equality longer shorter)
      (right.equality longer shorter) := by
  have sameSign := parallel.isOn_eq '=' isRelated (by decide)
  unfold Cursor.equality
  rw [← sameSign]
  split
  · next isOn =>
    have nextRelated := parallel.next isRelated (eq_of_beq isOn) (by decide)
    exact .ok (.some (parallel.longerMark nextRelated (by decide)))
  · exact .error rfl

theorem mark (parallel : Parallel related) (isRelated : related left right) :
    Agrees (Option.Rel (SameThen related)) left.mark right.mark := by
  obtain same | ⟨first, second, isFirst, isSecond, firstBreaks, secondBreaks⟩ :=
    parallel.current isRelated
  · unfold Cursor.mark
    rw [← same]
    cases isCurrent : left.current with
    | none => exact .ok .none
    | some first =>
        dsimp only
        split
        · next single isSingle =>
          have plain : isPlain first = true :=
            @isPlain_of_class (fun character => (Mark.single? character).isSome) first
              (by simp [isSingle]) (by decide) (by decide) (by decide) (by decide) (by decide)
          exact .ok (.some ⟨rfl, parallel.next isRelated isCurrent plain⟩)
        · split
          · have nextRelated := parallel.next isRelated isCurrent (by decide)
            exact .ok (.some (parallel.longerMark nextRelated (by decide)))
          · have nextRelated := parallel.next isRelated isCurrent (by decide)
            exact .ok (.some (parallel.longerMark nextRelated (by decide)))
          · have nextRelated := parallel.next isRelated isCurrent (by decide)
            exact .ok (.some (parallel.longerMark nextRelated (by decide)))
          · have nextRelated := parallel.next isRelated isCurrent (by decide)
            exact .ok (.some (parallel.longerMark nextRelated (by decide)))
          · exact parallel.equality (parallel.next isRelated isCurrent (by decide))
          · exact parallel.equality (parallel.next isRelated isCurrent (by decide))
          · exact .ok .none
  · have noMark {cursor : Cursor} {character : Char} (isCurrent : cursor.current = some character)
        (breaks : breaksLine character = true) : cursor.mark = .ok none := by
      simp only [breaksLine, Bool.or_eq_true, beq_iff_eq] at breaks
      rcases breaks with (rfl | rfl) | rfl <;>
        simp [Cursor.mark, isCurrent, Mark.single?, recordSeparator]
    rw [noMark isFirst firstBreaks, noMark isSecond secondBreaks]
    exact .ok .none

/-! ## Numbers -/

theorem digitsFrom_of_none {cursor : Cursor} {radix steps value count : Nat}
    (ended : cursor.current.bind (digitValue? radix) = none) :
    cursor.digitsFrom limits radix steps value count = .ok ⟨value, count, cursor⟩ := by
  cases steps with
  | zero => rfl
  | succ steps => rw [Cursor.digitsFrom, ended]

theorem wholePartFrom_of_none {cursor : Cursor} {steps : Nat} {whole : Float}
    (ended : cursor.current.bind (digitValue? 10) = none) :
    cursor.wholePartFrom limits steps whole = .ok (whole, cursor) := by
  cases steps with
  | zero => rfl
  | succ steps => rw [Cursor.wholePartFrom, ended]

/-- The digits under parallel cursors are the same, and behind one both move on. -/
theorem digit_cases (parallel : Parallel related) (isRelated : related left right) (radix : Nat) :
    left.current.bind (digitValue? radix) = none ∧
        right.current.bind (digitValue? radix) = none ∨
      ∃ digit, left.current.bind (digitValue? radix) = some digit ∧
        right.current.bind (digitValue? radix) = some digit ∧
        0 < left.ahead ∧ 0 < right.ahead ∧ related left.nextInNumber right.nextInNumber := by
  have same := @bind_eq _ _ _ _ (digitValue? radix) parallel isRelated fun _ =>
    digitValue?_eq_none_of_breaksLine radix
  cases value : left.current.bind (digitValue? radix) with
  | none => exact .inl ⟨rfl, same.symm.trans value⟩
  | some digit =>
      rw [same] at value
      obtain ⟨other, isOther, -⟩ := Option.bind_eq_some_iff.mp value
      rw [← same] at value
      obtain ⟨character, isCurrent, isDigit⟩ := Option.bind_eq_some_iff.mp value
      exact .inr ⟨digit, rfl, same.symm.trans value, ahead_pos_of_current isCurrent,
        ahead_pos_of_current isOther,
        parallel.nextInNumber isRelated isCurrent (isPlain_of_digitValue? isDigit)⟩

theorem digitsFrom {radix steps otherSteps : Nat} (parallel : Parallel related)
    (isRelated : related left right) (enough : left.ahead ≤ steps)
    (otherEnough : right.ahead ≤ otherSteps) (value count : Nat) :
    Agrees (fun first second => first.value = second.value ∧ first.count = second.count ∧
        related first.rest second.rest)
      (left.digitsFrom limits radix steps value count)
      (right.digitsFrom limits radix otherSteps value count) := by
  induction steps generalizing left right otherSteps value count with
  | zero =>
      obtain ⟨ended, otherEnded⟩ | ⟨digit, -, -, present, -⟩ :=
        parallel.digit_cases isRelated radix
      · rw [digitsFrom_of_none ended, digitsFrom_of_none otherEnded]
        exact .ok ⟨rfl, rfl, isRelated⟩
      · omega
  | succ steps ih =>
      obtain ⟨ended, otherEnded⟩ | ⟨digit, isDigit, isOther, -, present, restRelated⟩ :=
        parallel.digit_cases isRelated radix
      · rw [digitsFrom_of_none ended, digitsFrom_of_none otherEnded]
        exact .ok ⟨rfl, rfl, isRelated⟩
      · obtain ⟨otherSteps, rfl⟩ := Nat.exists_eq_succ_of_ne_zero
          (by omega : otherSteps ≠ 0)
        have moved := ahead_nextInNumber_le left
        have otherMoved := ahead_nextInNumber_le right
        unfold Cursor.digitsFrom
        rw [isDigit, isOther]
        dsimp only
        split
        · exact .error rfl
        · exact ih restRelated (by omega) (by omega) _ _

theorem wholePartFrom {steps otherSteps : Nat} (parallel : Parallel related)
    (isRelated : related left right) (enough : left.ahead ≤ steps)
    (otherEnough : right.ahead ≤ otherSteps) (whole : Float) :
    Agrees (SameThen related) (left.wholePartFrom limits steps whole)
      (right.wholePartFrom limits otherSteps whole) := by
  induction steps generalizing left right otherSteps whole with
  | zero =>
      obtain ⟨ended, otherEnded⟩ | ⟨digit, -, -, present, -⟩ := parallel.digit_cases isRelated 10
      · rw [wholePartFrom_of_none ended, wholePartFrom_of_none otherEnded]
        exact .ok ⟨rfl, isRelated⟩
      · omega
  | succ steps ih =>
      obtain ⟨ended, otherEnded⟩ | ⟨digit, isDigit, isOther, -, present, restRelated⟩ :=
        parallel.digit_cases isRelated 10
      · rw [wholePartFrom_of_none ended, wholePartFrom_of_none otherEnded]
        exact .ok ⟨rfl, isRelated⟩
      · obtain ⟨otherSteps, rfl⟩ := Nat.exists_eq_succ_of_ne_zero
          (by omega : otherSteps ≠ 0)
        have moved := ahead_nextInNumber_le left
        have otherMoved := ahead_nextInNumber_le right
        unfold Cursor.wholePartFrom
        rw [isDigit, isOther]
        dsimp only
        split
        · exact .error rfl
        · exact ih restRelated (by omega) (by omega) _

theorem fractionAfter {whole : Float} (parallel : Parallel related)
    (isRelated : related left right) :
    Agrees (Option.Rel (SameThen related)) (left.fractionAfter limits whole)
      (right.fractionAfter limits whole) := by
  have onPoint := parallel.isOn_eq '.' isRelated (by decide)
  unfold Cursor.fractionAfter
  rw [← onPoint]
  split
  · next isOn =>
    have nextRelated := parallel.nextInNumber isRelated (eq_of_beq isOn) (by decide)
    dsimp only
    rw [← parallel.isOnClass_eq Char.isDigit nextRelated (by
      intro character isDigit
      exact breaksLine_eq_false_of_class isDigit (by decide) (by decide) (by decide))]
    split
    · refine (parallel.digitsFrom nextRelated (Nat.le_refl _) (Nat.le_refl _) 0 0).bind ?_
      rintro first second ⟨sameValue, sameCount, restRelated⟩
      rw [sameValue, sameCount]
      exact .ok (.some ⟨rfl, restRelated⟩)
    · exact .error rfl
  · exact .ok .none

theorem otherBase (parallel : Parallel related) (isRelated : related left right) :
    Agrees (Option.Rel (SameThen related)) (left.otherBase limits) (right.otherBase limits) := by
  have same := @bind_eq _ _ _ _ radixOf? parallel isRelated (by
    intro character breaks
    simp only [breaksLine, Bool.or_eq_true, beq_iff_eq] at breaks
    rcases breaks with (rfl | rfl) | rfl <;> rfl)
  unfold Cursor.otherBase
  rw [← same]
  split
  · exact .ok .none
  · next radix selected =>
    obtain ⟨letter, isCurrent, isLetter⟩ := Option.bind_eq_some_iff.mp selected
    have plain : isPlain letter = true :=
      @isPlain_of_class (fun letter => (radixOf? letter).isSome) letter
        (by simp [isLetter]) (by decide) (by decide) (by decide) (by decide) (by decide)
    have nextRelated := parallel.nextInNumber isRelated isCurrent plain
    dsimp only
    rw [← parallel.isOnClass_eq _ nextRelated (by
      intro character isDigit
      by_contra breaks
      rw [digitValue?_eq_none_of_breaksLine radix (by simpa using breaks)] at isDigit
      cases isDigit)]
    split
    · refine (parallel.digitsFrom nextRelated (Nat.le_refl _) (Nat.le_refl _) 0 0).bind ?_
      rintro first second ⟨sameValue, -, restRelated⟩
      rw [sameValue]
      exact .ok (.some ⟨rfl, restRelated⟩)
    · exact .error rfl

theorem afterLeadingZero (parallel : Parallel related) (isRelated : related left right) :
    Agrees (SameThen related) (left.afterLeadingZero limits) (right.afterLeadingZero limits) := by
  refine (parallel.otherBase isRelated).bind ?_
  intro other otherRight sameOther
  cases sameOther with
  | some sameResult => exact .ok sameResult
  | none =>
      refine (parallel.fractionAfter isRelated).bind ?_
      intro fraction fractionRight sameFraction
      cases sameFraction with
      | some sameResult => exact .ok sameResult
      | none =>
          dsimp only
          rw [parallel.isOnClass_eq Char.isDigit isRelated fun _ isDigit =>
              breaksLine_eq_false_of_class isDigit (by decide) (by decide) (by decide),
            parallel.isOnClass_eq Character.isAlphabetic isRelated fun _ isLetter =>
              breaksLine_eq_false_of_class isLetter (by decide) (by decide) (by decide)]
          split
          · exact .error rfl
          · split
            · exact .error rfl
            · exact .ok ⟨rfl, isRelated⟩

theorem decimal (parallel : Parallel related) (isRelated : related left right) :
    Agrees (SameThen related) (left.decimal limits) (right.decimal limits) := by
  refine (parallel.wholePartFrom isRelated (Nat.le_refl _) (Nat.le_refl _) 0.0).bind ?_
  rintro ⟨whole, rest⟩ ⟨_, otherRest⟩ ⟨rfl, restRelated⟩
  refine (parallel.fractionAfter restRelated).bind ?_
  intro fraction fractionRight sameFraction
  cases sameFraction with
  | some sameResult => exact .ok sameResult
  | none => exact .ok ⟨rfl, restRelated⟩

theorem numberLiteral (parallel : Parallel related) (isRelated : related left right) :
    Agrees (Option.Rel (SameThen related)) (left.numberLiteral limits)
      (right.numberLiteral limits) := by
  unfold Cursor.numberLiteral
  rw [← parallel.isOn_eq '0' isRelated (by decide),
    ← parallel.isOnClass_eq Char.isDigit isRelated fun _ isDigit =>
      breaksLine_eq_false_of_class isDigit (by decide) (by decide) (by decide)]
  split
  · next isOn =>
    have nextRelated := parallel.nextInNumber isRelated (eq_of_beq isOn) (by decide)
    exact (parallel.afterLeadingZero nextRelated).map fun _ _ => .some
  · split
    · exact (parallel.decimal isRelated).map fun _ _ => .some
    · exact .ok .none

/-! ## Lexemes -/

theorem delimitedBody_none {body : BodyKind} (parallel : Parallel related)
    (isRelated : related left right) (absent : left.delimitedBody limits body = .ok none) :
    right.delimitedBody limits body = .ok none := by
  rw [delimitedBody_eq_none_iff] at absent ⊢
  rw [← parallel.isOn_eq body.delimiter isRelated (by cases body <;> decide)]
  exact absent

/-- A lexeme that one cursor reads is read by a parallel one, if this holds of texts and
comments. -/
theorem lexeme {found : Lexeme} {rest : Cursor} (parallel : Parallel related)
    (isRelated : related left right) (read : left.lexeme limits = .ok (found, rest))
    (bodies : ∀ body, left.delimitedBody limits body = .ok (some (found, rest)) →
      ∃ otherRest, right.delimitedBody limits body = .ok (some (found, otherRest)) ∧
        related rest otherRest) :
    ∃ otherRest, right.lexeme limits = .ok (found, otherRest) ∧ related rest otherRest := by
  have noWord (absent : left.word limits = .ok none) : right.word limits = .ok none :=
    ok_none_of_agrees (parallel.word isRelated) absent
  have noMark (absent : left.mark = .ok none) : right.mark = .ok none :=
    ok_none_of_agrees (parallel.mark isRelated) absent
  have noNumber (absent : left.numberLiteral limits = .ok none) :
      right.numberLiteral limits = .ok none :=
    ok_none_of_agrees (parallel.numberLiteral isRelated) absent
  cases lexeme_eq_ok_iff.mp read with
  | word wordRead =>
      obtain ⟨otherRest, otherRead, restRelated⟩ := ok_some_of_agrees (parallel.word isRelated) wordRead
      exact ⟨otherRest, lexeme_eq_ok_iff.mpr (.word otherRead), restRelated⟩
  | mark word markRead =>
      obtain ⟨otherRest, otherRead, restRelated⟩ := ok_some_of_agrees (parallel.mark isRelated) markRead
      exact ⟨otherRest, lexeme_eq_ok_iff.mpr (.mark (noWord word) otherRead), restRelated⟩
  | number word mark numberRead =>
      obtain ⟨otherRest, otherRead, restRelated⟩ :=
        ok_some_of_agrees (parallel.numberLiteral isRelated) numberRead
      exact ⟨otherRest, lexeme_eq_ok_iff.mpr (.number (noWord word) (noMark mark) otherRead),
        restRelated⟩
  | text word mark number textRead =>
      obtain ⟨otherRest, otherRead, restRelated⟩ := bodies .text textRead
      exact ⟨otherRest, lexeme_eq_ok_iff.mpr
        (.text (noWord word) (noMark mark) (noNumber number) otherRead), restRelated⟩
  | comment word mark number text commentRead =>
      obtain ⟨otherRest, otherRead, restRelated⟩ := bodies .comment commentRead
      exact ⟨otherRest, lexeme_eq_ok_iff.mpr
        (.comment (noWord word) (noMark mark) (noNumber number)
          (parallel.delimitedBody_none isRelated text) otherRead), restRelated⟩

end Parallel

end Cursor

end Plainspoken
