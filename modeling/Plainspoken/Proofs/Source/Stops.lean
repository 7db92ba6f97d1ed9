import Plainspoken.Proofs.Source.Progress

/-!
# Where the reading of a token stops

The reading of a token is followed here step by step, without its result: what has been read so
far, and what the character under the cursor then makes of it.  A step may move the cursor on,
it may end the token, or it may fail.  If the reading of a token fails, the place where its last
step fails is the one that the failure is reported at.
-/

namespace Plainspoken

/-- What has been read of a token. -/
inductive Reading where
  /-- Nothing yet. -/
  | start
  /-- Some characters of a word. -/
  | word (length : Nat)
  /-- A first equals or exclamation sign. -/
  | equality
  /-- A number that begins with zero, up to that zero. -/
  | leadingZero
  /-- A number up to the letter of its base. -/
  | base (radix : Nat)
  /-- A number up to some of the digits that are read as a natural number. -/
  | digits (radix value : Nat)
  /-- Some of the digits before a decimal point. -/
  | wholePart (amount : Float)
  /-- A number up to its decimal point. -/
  | point
  /-- Some items of a text or a comment. -/
  | body (kind : BodyKind) (items : Nat)
  /-- Some items of a text or a comment and a backslash. -/
  | escape (kind : BodyKind) (items : Nat)

/-- What the character under the cursor makes of a reading. -/
inductive Reading.Step where
  | goesOn (reading : Reading) (cursor : Cursor)
  | fails (cause : LexicalCause)
  /-- The token is read, or what remains of it cannot fail. -/
  | ends

namespace Reading

open Cursor

variable (limits : Limits)

def step (cursor : Cursor) : Reading → Step
  | .start =>
      if cursor.isOnClass isWordStart then .goesOn (.word 0) cursor
      else if cursor.isOn '=' || cursor.isOn '!' then .goesOn .equality cursor.next
      else if cursor.mark.toOption.join.isSome then .ends
      else if cursor.isOn '0' then .goesOn .leadingZero cursor.nextInNumber
      else if cursor.isOnClass Char.isDigit then .goesOn (.wholePart 0.0) cursor
      else if cursor.isOn BodyKind.text.delimiter then .goesOn (.body .text 0) cursor.nextInBody
      else if cursor.isOn BodyKind.comment.delimiter then
        .goesOn (.body .comment 0) cursor.nextInBody
      else .fails .unknownToken
  | .word length =>
      if limits.maxIdentifier < length then .fails (.identifierTooBig limits.maxIdentifier)
      else if cursor.isOnClass isWordPart then .goesOn (.word (length + 1)) cursor.next
      else .ends
  | .equality => if cursor.isOn '=' then .ends else .fails .unknownToken
  | .leadingZero =>
      match cursor.current.bind radixOf? with
      | some radix => .goesOn (.base radix) cursor.nextInNumber
      | none =>
          if cursor.isOn '.' then .goesOn .point cursor.nextInNumber
          else if cursor.isOnClass Char.isDigit then .fails .numberNotADecimal
          else if cursor.isOnClass Character.isAlphabetic then .fails .numberUnknownBase
          else .ends
  | .base radix =>
      if cursor.isOnClass fun character => (digitValue? radix character).isSome then
        .goesOn (.digits radix 0) cursor
      else .fails .numberNotInBase
  | .digits radix value =>
      match cursor.current.bind (digitValue? radix) with
      | none => .ends
      | some digit =>
          let extended := value * radix + digit
          if UInt64.size ≤ extended ∨ doubleOf extended > limits.maxNumber then
            .fails .numberOverflow
          else .goesOn (.digits radix extended) cursor.nextInNumber
  | .wholePart amount =>
      match cursor.current.bind (digitValue? 10) with
      | none => if cursor.isOn '.' then .goesOn .point cursor.nextInNumber else .ends
      | some digit =>
          let extended := amount * 10.0 + doubleOf digit
          if extended > limits.maxNumber then .fails .numberOverflow
          else .goesOn (.wholePart extended) cursor.nextInNumber
  | .point =>
      if cursor.isOnClass Char.isDigit then .goesOn (.digits 10 0) cursor
      else .fails .numberNotADecimal
  | .body kind items =>
      if kind.limit limits < items then .fails (.bodyTooBig kind (kind.limit limits))
      else if cursor.isOn kind.delimiter then .ends
      else
        match cursor.current with
        | none => .fails (.bodySuddenEnd kind)
        | some character =>
            if character = '\\' then .goesOn (.escape kind items) cursor.nextInBody
            else .goesOn (.body kind (items + 1)) cursor.nextInBody
  | .escape kind items =>
      match cursor.current with
      | none => .fails (.bodySuddenEnd kind)
      | some escaped =>
          if (unescape? escaped).isSome then .goesOn (.body kind (items + 1)) cursor.nextInBody
          else .fails (.unknownEscape escaped)

/-- The reading goes on from the cursor until a step fails, with a cause and at a place. -/
inductive Stops : Reading → Cursor → LexicalCause → Cursor → Prop where
  | here {reading : Reading} {cursor : Cursor} {cause : LexicalCause}
      (fails : reading.step limits cursor = .fails cause) : Stops reading cursor cause cursor
  | later {reading next : Reading} {cursor moved stop : Cursor} {cause : LexicalCause}
      (goesOn : reading.step limits cursor = .goesOn next moved)
      (stops : Stops next moved cause stop) : Stops reading cursor cause stop

variable {limits} {reading next : Reading} {cursor moved stop stop' : Cursor}
  {cause cause' : LexicalCause}

/-- A reading stops at one place only. -/
theorem Stops.unique (stops : Stops limits reading cursor cause stop)
    (stops' : Stops limits reading cursor cause' stop') : cause = cause' ∧ stop = stop' := by
  induction stops with
  | here fails =>
      cases stops' with
      | here fails' =>
          cases fails.symm.trans fails'
          exact ⟨rfl, rfl⟩
      | later goesOn' _ => cases fails.symm.trans goesOn'
  | later goesOn _ ih =>
      cases stops' with
      | here fails' => cases goesOn.symm.trans fails'
      | later goesOn' later' =>
          cases goesOn.symm.trans goesOn'
          exact ih later'

/-- From a character under the cursor each way of moving on passes some characters. -/
theorem passes_moves {character : Char} (isCurrent : cursor.current = some character) :
    (∃ taken, cursor.Passes taken cursor.next) ∧
      (∃ taken, cursor.Passes taken cursor.nextInNumber) ∧
      ∃ taken, cursor.Passes taken cursor.nextInBody :=
  ⟨passes_next isCurrent,
    ⟨_, (Passes.advance isCurrent).trans (.advanceWhile _ isDigitSeparator)⟩,
    ⟨_, Passes.advance isCurrent⟩⟩

private theorem passes_moves_of_isOn {character : Char} (isOn : cursor.isOn character = true) :
    (∃ taken, cursor.Passes taken cursor.next) ∧
      (∃ taken, cursor.Passes taken cursor.nextInNumber) ∧
      ∃ taken, cursor.Passes taken cursor.nextInBody :=
  passes_moves (eq_of_beq isOn)

private theorem passes_of_goesOn_start (goesOn : start.step limits cursor = .goesOn next moved) :
    ∃ taken, cursor.Passes taken moved := by
  simp only [step] at goesOn
  split at goesOn
  · cases goesOn
    exact ⟨[], .refl cursor⟩
  split at goesOn
  · next isSign =>
    cases goesOn
    rcases Bool.or_eq_true_iff.mp isSign with isOn | isOn
    · exact (passes_moves_of_isOn isOn).1
    · exact (passes_moves_of_isOn isOn).1
  split at goesOn
  · cases goesOn
  split at goesOn
  · next isOn =>
    cases goesOn
    exact (passes_moves_of_isOn isOn).2.1
  split at goesOn
  · cases goesOn
    exact ⟨[], .refl cursor⟩
  split at goesOn
  · next isOn =>
    cases goesOn
    exact (passes_moves_of_isOn isOn).2.2
  split at goesOn
  · next isOn =>
    cases goesOn
    exact (passes_moves_of_isOn isOn).2.2
  · cases goesOn

/-- A step passes the characters between its two places. -/
theorem passes_of_goesOn (goesOn : reading.step limits cursor = .goesOn next moved) :
    ∃ taken, cursor.Passes taken moved := by
  cases reading with
  | start => exact passes_of_goesOn_start goesOn
  | word length =>
      simp only [step] at goesOn
      split at goesOn
      · cases goesOn
      · split at goesOn
        · next isPart =>
          cases goesOn
          obtain ⟨character, isCurrent, -⟩ := exists_current_of_isOnClass isPart
          exact (passes_moves isCurrent).1
        · cases goesOn
  | equality =>
      simp only [step] at goesOn
      split at goesOn <;> cases goesOn
  | leadingZero =>
      simp only [step] at goesOn
      split at goesOn
      · next radix selected =>
        cases goesOn
        obtain ⟨letter, isCurrent, -⟩ := Option.bind_eq_some_iff.mp selected
        exact (passes_moves isCurrent).2.1
      · split at goesOn
        · next isOn =>
          cases goesOn
          exact (passes_moves_of_isOn isOn).2.1
        · split at goesOn
          · cases goesOn
          · split at goesOn <;> cases goesOn
  | base radix =>
      simp only [step] at goesOn
      split at goesOn
      · cases goesOn
        exact ⟨[], .refl cursor⟩
      · cases goesOn
  | digits radix value =>
      simp only [step] at goesOn
      split at goesOn
      · cases goesOn
      · next digit isDigit =>
        obtain ⟨character, isCurrent, -⟩ := exists_current_of_digit isDigit
        split at goesOn
        · cases goesOn
        · cases goesOn
          exact (passes_moves isCurrent).2.1
  | wholePart amount =>
      simp only [step] at goesOn
      split at goesOn
      · split at goesOn
        · next isOn =>
          cases goesOn
          exact (passes_moves_of_isOn isOn).2.1
        · cases goesOn
      · next digit isDigit =>
        obtain ⟨character, isCurrent, -⟩ := exists_current_of_digit isDigit
        split at goesOn
        · cases goesOn
        · cases goesOn
          exact (passes_moves isCurrent).2.1
  | point =>
      simp only [step] at goesOn
      split at goesOn
      · cases goesOn
        exact ⟨[], .refl cursor⟩
      · cases goesOn
  | body kind items =>
      simp only [step] at goesOn
      split at goesOn
      · cases goesOn
      · split at goesOn
        · cases goesOn
        · split at goesOn
          · cases goesOn
          · next character isCurrent =>
            split at goesOn <;> cases goesOn <;> exact (passes_moves isCurrent).2.2
  | escape kind items =>
      simp only [step] at goesOn
      split at goesOn
      · cases goesOn
      · next escaped isCurrent =>
        split at goesOn
        · cases goesOn
          exact (passes_moves isCurrent).2.2
        · cases goesOn

theorem Stops.passes (stops : Stops limits reading cursor cause stop) :
    ∃ taken, cursor.Passes taken stop := by
  induction stops with
  | here => exact ⟨[], .refl _⟩
  | later goesOn _ ih =>
      obtain ⟨taken, passes⟩ := passes_of_goesOn goesOn
      obtain ⟨others, passesOthers⟩ := ih
      exact ⟨taken ++ others, passes.trans passesOthers⟩

/-! ## Each reader stops where its steps do -/

/-- If a reader fails, then at the place where the reading stops. -/
def FailsWhereStopped {α : Type} (limits : Limits) (reading : Reading) (cursor : Cursor)
    (result : Except LexicalError α) : Prop :=
  ∀ error, result = .error error →
    ∃ stop, Stops limits reading cursor error.cause stop ∧ error = stop.failure error.cause

namespace FailsWhereStopped

variable {α β : Type}

theorem ok {value : α} : FailsWhereStopped limits reading cursor (.ok value) :=
  nofun

theorem here (fails : reading.step limits cursor = .fails cause) :
    FailsWhereStopped limits reading cursor (.error (cursor.failure cause) : Except _ α) := by
  rintro _ ⟨⟩
  exact ⟨cursor, .here fails, rfl⟩

theorem later {result : Except LexicalError α}
    (goesOn : reading.step limits cursor = .goesOn next moved)
    (fails : FailsWhereStopped limits next moved result) :
    FailsWhereStopped limits reading cursor result := by
  intro error failed
  obtain ⟨stop, stops, same⟩ := fails error failed
  exact ⟨stop, .later goesOn stops, same⟩

theorem bind {first : Except LexicalError α} {second : α → Except LexicalError β}
    (firstFails : FailsWhereStopped limits reading cursor first)
    (secondFails : ∀ value, first = .ok value →
      FailsWhereStopped limits reading cursor (second value)) :
    FailsWhereStopped limits reading cursor (first >>= second) := by
  cases first with
  | error failure =>
      rintro _ ⟨⟩
      exact firstFails failure rfl
  | ok value => exact secondFails value rfl

theorem map {result : Except LexicalError α} {change : α → β}
    (fails : FailsWhereStopped limits reading cursor result) :
    FailsWhereStopped limits reading cursor (change <$> result) := by
  cases result with
  | error failure =>
      rintro _ ⟨⟩
      exact fails failure rfl
  | ok value => exact ok

end FailsWhereStopped

/-! ### Numbers -/

theorem digitsFrom_fails {radix steps value count : Nat} :
    FailsWhereStopped limits (.digits radix value) cursor
      (cursor.digitsFrom limits radix steps value count) := by
  induction steps generalizing cursor value count with
  | zero => exact .ok
  | succ steps ih =>
      unfold digitsFrom
      split
      · exact .ok
      · next digit isDigit =>
        dsimp only
        split
        · next overflows => exact .here (by simp only [step, isDigit, overflows, if_true])
        · next fits => exact .later (by simp only [step, isDigit, fits, if_false]) ih

/-- The digits before a point, and what is read behind them. -/
theorem wholePartFrom_bind {α : Type} {steps : Nat} {amount : Float}
    {second : Float × Cursor → Except LexicalError α}
    (secondFails : ∀ result, cursor.wholePartFrom limits steps amount = .ok result →
      FailsWhereStopped limits (.wholePart result.1) result.2 (second result)) :
    FailsWhereStopped limits (.wholePart amount) cursor
      (cursor.wholePartFrom limits steps amount >>= second) := by
  induction steps generalizing cursor amount with
  | zero => exact secondFails (amount, cursor) rfl
  | succ steps ih =>
      unfold wholePartFrom at secondFails ⊢
      split
      · next noDigit => exact secondFails (amount, cursor) (by rw [noDigit])
      · next digit isDigit =>
        simp only [isDigit] at secondFails
        dsimp only
        split
        · next overflows =>
          exact .bind (.here (by simp only [step, isDigit, overflows, if_true])) nofun
        · next fits =>
          simp only [fits, if_false] at secondFails
          exact .later (by simp only [step, isDigit, fits, if_false]) (ih secondFails)

theorem fractionAfter_fails {whole : Float}
    (goesOn : cursor.isOn '.' = true →
      reading.step limits cursor = .goesOn .point cursor.nextInNumber) :
    FailsWhereStopped limits reading cursor (cursor.fractionAfter limits whole) := by
  unfold fractionAfter
  split
  · next onPoint =>
    refine .later (goesOn onPoint) ?_
    dsimp only
    split
    · next isDigit =>
      have digits : Reading.step limits cursor.nextInNumber .point =
          .goesOn (.digits 10 0) cursor.nextInNumber := by simp only [step, isDigit, if_true]
      exact .later digits (digitsFrom_fails.bind fun _ _ => .ok)
    · next noDigit => exact .here (by simp [step, noDigit])
  · exact .ok

theorem otherBase_fails :
    FailsWhereStopped limits .leadingZero cursor (cursor.otherBase limits) := by
  unfold otherBase
  split
  · exact .ok
  · next radix selected =>
    have base : Reading.step limits cursor .leadingZero =
        .goesOn (.base radix) cursor.nextInNumber := by simp only [step, selected]
    refine .later base ?_
    dsimp only
    split
    · next isDigit =>
      have digits : Reading.step limits cursor.nextInNumber (.base radix) =
          .goesOn (.digits radix 0) cursor.nextInNumber := by simp only [step, isDigit, if_true]
      exact .later digits (digitsFrom_fails.bind fun _ _ => .ok)
    · next noDigit => exact .here (by simp [step, noDigit])

private theorem radixOf?_eq_none_of_otherBase (read : cursor.otherBase limits = .ok none) :
    cursor.current.bind radixOf? = none := by
  unfold otherBase at read
  split at read
  · next unselected => exact unselected
  · dsimp only at read
    split at read
    · obtain ⟨run, -, ended⟩ := except_bind_ok_iff.mp read
      cases ended
    · cases read

private theorem isOn_eq_false_of_fractionAfter {whole : Float}
    (read : cursor.fractionAfter limits whole = .ok none) : cursor.isOn '.' = false := by
  unfold fractionAfter at read
  split at read
  · dsimp only at read
    split at read
    · obtain ⟨run, -, ended⟩ := except_bind_ok_iff.mp read
      cases ended
    · cases read
  · next noPoint => simpa using noPoint

theorem afterLeadingZero_fails :
    FailsWhereStopped limits .leadingZero cursor (cursor.afterLeadingZero limits) := by
  refine otherBase_fails.bind fun other otherRead => ?_
  cases other with
  | some other => exact .ok
  | none =>
      have unselected := radixOf?_eq_none_of_otherBase otherRead
      refine (fractionAfter_fails fun onPoint => ?_).bind fun fraction fractionRead => ?_
      · simp only [step, unselected, onPoint, if_true]
      cases fraction with
      | some fraction => exact .ok
      | none =>
          have noPoint := isOn_eq_false_of_fractionAfter fractionRead
          dsimp only
          split
          · next isDigit => exact .here (by simp [step, unselected, noPoint, isDigit])
          · next noDigit =>
            split
            · next isLetter => exact .here (by simp [step, unselected, noPoint, noDigit, isLetter])
            · exact .ok

theorem decimal_fails :
    FailsWhereStopped limits (.wholePart 0.0) cursor (cursor.decimal limits) := by
  refine wholePartFrom_bind fun result _ => ?_
  obtain ⟨whole, rest⟩ := result
  refine (fractionAfter_fails fun onPoint => ?_).bind fun _ _ => .ok
  have isPoint : rest.current = some '.' := eq_of_beq onPoint
  have noDigit : rest.current.bind (digitValue? 10) = none := by
    rw [isPoint]
    rfl
  simp only [step, noDigit, onPoint, if_true]

/-! ### Words -/

/-- The characters of a word, and what is read behind them.  The budget is one character more
than the limit still allows, so that it is used up exactly where the reading fails. -/
theorem wordParts_then {α : Type} {budget length : Nat} {outcome : Except LexicalError α}
    (bound : length + budget = limits.maxIdentifier + 1)
    (fails : FailsWhereStopped limits (.word (length + (wordParts budget cursor).1.length))
      (wordParts budget cursor).2 outcome) :
    FailsWhereStopped limits (.word length) cursor outcome := by
  induction budget generalizing cursor length with
  | zero => exact fails
  | succ budget ih =>
      unfold wordParts at fails
      split at fails
      · exact fails
      · next character isCurrent =>
        split at fails
        · next isPart =>
          have fits : ¬limits.maxIdentifier < length := by omega
          have goesOn : Reading.step limits cursor (.word length) =
              .goesOn (.word (length + 1)) cursor.next := by
            simp [step, fits, isOnClass, isCurrent, isPart]
          refine .later goesOn (ih (by omega) ?_)
          simpa only [List.length_cons, Nat.add_assoc, Nat.add_comm 1] using fails
        · exact fails

theorem word_fails : FailsWhereStopped limits .start cursor (cursor.word limits) := by
  unfold Cursor.word
  split
  · next starts =>
    have goesOn : Reading.step limits cursor .start = .goesOn (.word 0) cursor := by
      simp only [step, starts, if_true]
    refine .later goesOn (wordParts_then (Nat.zero_add _) ?_)
    dsimp only
    split
    · next tooBig => exact .here (by simp only [step, Nat.zero_add, tooBig, if_true])
    · exact .ok
  · exact .ok

private theorem isOnClass_isWordStart_of_word (read : cursor.word limits = .ok none) :
    cursor.isOnClass isWordStart = false := by
  unfold Cursor.word at read
  split at read
  · dsimp only at read
    split at read <;> cases read
  · next noWord => simpa using noWord

/-! ### Marks -/

theorem equality_fails {longer shorter : Mark} :
    FailsWhereStopped limits .equality cursor (cursor.equality longer shorter) := by
  unfold Cursor.equality
  split
  · exact .ok
  · next noSign => exact .here (by simp [step, noSign])

theorem mark_fails (noWord : cursor.isOnClass isWordStart = false) :
    FailsWhereStopped limits .start cursor cursor.mark := by
  cases isCurrent : cursor.current with
  | none =>
      simp only [Cursor.mark, isCurrent]
      exact .ok
  | some first =>
      simp only [Cursor.mark, isCurrent]
      split
      · exact .ok
      · split
        · exact .ok
        · exact .ok
        · exact .ok
        · exact .ok
        · exact .later (by simp [step, noWord, isOn, isCurrent]) equality_fails
        · exact .later (by simp [step, noWord, isOn, isCurrent]) equality_fails
        · exact .ok

/-- A first equals or exclamation sign is the beginning of a mark or of nothing. -/
theorem equality_ne_none {longer shorter : Mark} :
    cursor.equality longer shorter ≠ .ok none := by
  unfold Cursor.equality
  split <;> nofun

private theorem isOn_eq_false_of_mark (read : cursor.mark = .ok none) :
    (cursor.isOn '=' || cursor.isOn '!') = false := by
  by_contra onSign
  rcases Bool.or_eq_true_iff.mp (Bool.not_eq_false _ ▸ onSign) with onSign | onSign
  · have isCurrent : cursor.current = some '=' := eq_of_beq onSign
    simp only [Cursor.mark, isCurrent] at read
    exact equality_ne_none read
  · have isCurrent : cursor.current = some '!' := eq_of_beq onSign
    simp only [Cursor.mark, isCurrent] at read
    exact equality_ne_none read

/-! ### Behind words and marks -/

/-- What begins where neither a word nor a mark does. -/
theorem step_start (noWord : cursor.isOnClass isWordStart = false)
    (noMark : cursor.mark = .ok none) :
    Reading.step limits cursor .start =
      if cursor.isOn '0' then .goesOn .leadingZero cursor.nextInNumber
      else if cursor.isOnClass Char.isDigit then .goesOn (.wholePart 0.0) cursor
      else if cursor.isOn BodyKind.text.delimiter then .goesOn (.body .text 0) cursor.nextInBody
      else if cursor.isOn BodyKind.comment.delimiter then
        .goesOn (.body .comment 0) cursor.nextInBody
      else .fails .unknownToken := by
  have nothing : cursor.mark.toOption.join.isSome = false := by
    rw [noMark]
    rfl
  simp [step, noWord, isOn_eq_false_of_mark noMark, nothing]

theorem numberLiteral_fails (noWord : cursor.isOnClass isWordStart = false)
    (noMark : cursor.mark = .ok none) :
    FailsWhereStopped limits .start cursor (cursor.numberLiteral limits) := by
  have begins := @step_start limits cursor noWord noMark
  unfold Cursor.numberLiteral
  split
  · next onZero =>
    exact .later (by rw [begins, if_pos onZero]) afterLeadingZero_fails.map
  · next noZero =>
    split
    · next onDigit =>
      exact .later (by rw [begins, if_neg noZero, if_pos onDigit]) decimal_fails.map
    · exact .ok

private theorem noDigit_of_numberLiteral (read : cursor.numberLiteral limits = .ok none) :
    cursor.isOn '0' = false ∧ cursor.isOnClass Char.isDigit = false := by
  unfold Cursor.numberLiteral at read
  split at read
  · obtain ⟨_, -, impossible⟩ := except_map_ok_iff.mp read
    cases impossible
  · next noZero =>
    split at read
    · obtain ⟨_, -, impossible⟩ := except_map_ok_iff.mp read
      cases impossible
    · next noDigit => exact ⟨by simpa using noZero, by simpa using noDigit⟩

/-! ### Texts and comments -/

section Bodies

variable {α : Type} {kind : BodyKind} {items : Nat}

/-- One item of a body, and what is read behind it. -/
theorem bodyItem_bind {second : Char × Cursor → Except LexicalError α}
    (fits : ¬kind.limit limits < items) (unclosed : cursor.isOn kind.delimiter = false)
    (secondFails : ∀ result, bodyItem kind cursor = .ok result →
      FailsWhereStopped limits (.body kind (items + 1)) result.2 (second result)) :
    FailsWhereStopped limits (.body kind items) cursor (bodyItem kind cursor >>= second) := by
  unfold bodyItem at secondFails ⊢
  split
  · next ended => exact .bind (.here (by simp [step, fits, unclosed, ended])) nofun
  · next isBackslash =>
    simp only [isBackslash] at secondFails
    have goesOn : Reading.step limits cursor (.body kind items) =
        .goesOn (.escape kind items) cursor.nextInBody := by
      simp [step, fits, unclosed, isBackslash]
    refine .later goesOn ?_
    dsimp only
    split
    · next ended => exact .bind (.here (by simp only [step, ended])) nofun
    · next escaped isEscaped =>
      simp only [isEscaped] at secondFails
      split
      · next unknown => exact .bind (.here (by simp [step, isEscaped, unknown])) nofun
      · next character known =>
        simp only [known] at secondFails
        exact .later (by simp [step, isEscaped, known]) (secondFails _ rfl)
  · next character notBackslash isCurrent =>
    have plain : character ≠ '\\' := fun same => notBackslash same
    have goesOn : Reading.step limits cursor (.body kind items) =
        .goesOn (.body kind (items + 1)) cursor.nextInBody := by
      simp [step, fits, unclosed, isCurrent, plain]
    refine .later goesOn (secondFails (character, cursor.nextInBody) ?_)
    simp [isCurrent]

/-- The items of a body, and what is read behind them.  The budget is one item more than the
limit still allows, as for words. -/
theorem bodyItems_bind {budget : Nat} {second : List Char × Cursor → Except LexicalError α}
    (bound : items + budget = kind.limit limits + 1)
    (secondFails : ∀ result, bodyItems kind budget cursor = .ok result →
      FailsWhereStopped limits (.body kind (items + result.1.length)) result.2 (second result)) :
    FailsWhereStopped limits (.body kind items) cursor
      (bodyItems kind budget cursor >>= second) := by
  induction budget generalizing cursor items second with
  | zero => exact secondFails ([], cursor) rfl
  | succ budget ih =>
      unfold bodyItems at secondFails ⊢
      split
      · next closed => exact secondFails ([], cursor) (by rw [if_pos closed])
      · next unclosed =>
        simp only [bind_assoc, pure_bind]
        refine bodyItem_bind (by omega) (by simpa using unclosed) fun result itemRead => ?_
        obtain ⟨character, rest⟩ := result
        refine ih (by omega) fun result itemsRead => ?_
        obtain ⟨characters, rest⟩ := result
        have fails := secondFails (character :: characters, rest) (by
          rw [if_neg unclosed]
          exact except_bind_ok_iff.mpr
            ⟨_, itemRead, except_bind_ok_iff.mpr ⟨_, itemsRead, rfl⟩⟩)
        simpa only [List.length_cons, Nat.add_assoc, Nat.add_comm 1] using fails

theorem delimitedBody_fails
    (goesOn : cursor.isOn kind.delimiter = true →
      reading.step limits cursor = .goesOn (.body kind 0) cursor.nextInBody) :
    FailsWhereStopped limits reading cursor (cursor.delimitedBody limits kind) := by
  unfold delimitedBody
  split
  · next opens =>
    refine .later (goesOn opens) (bodyItems_bind (Nat.zero_add _) fun result _ => ?_)
    obtain ⟨characters, rest⟩ := result
    dsimp only
    split
    · next tooBig => exact .here (by simp [step, tooBig])
    · exact .ok
  · exact .ok

end Bodies

/-! ### Lexemes and tokens -/

theorem lexeme_fails : FailsWhereStopped limits .start cursor (cursor.lexeme limits) := by
  -- every rule that does not apply leaves fewer ways in which the token can begin
  refine word_fails.bind fun word wordRead => ?_
  cases word with
  | some word => exact .ok
  | none =>
  have noWord := isOnClass_isWordStart_of_word wordRead
  refine (mark_fails noWord).bind fun mark markRead => ?_
  cases mark with
  | some mark => exact .ok
  | none =>
  have begins := @step_start limits cursor noWord markRead
  refine (numberLiteral_fails noWord markRead).bind fun number numberRead => ?_
  cases number with
  | some number => exact .ok
  | none =>
  obtain ⟨noZero, noDigit⟩ := noDigit_of_numberLiteral numberRead
  rw [noZero, noDigit] at begins
  refine (delimitedBody_fails fun opens => ?_).bind fun text textRead => ?_
  · rw [begins, opens]
    rfl
  cases text with
  | some text => exact .ok
  | none =>
  rw [delimitedBody_eq_none_iff.mp textRead] at begins
  refine (delimitedBody_fails fun opens => ?_).bind fun comment commentRead => ?_
  · rw [begins, opens]
    rfl
  cases comment with
  | some comment => exact .ok
  | none =>
      rw [delimitedBody_eq_none_iff.mp commentRead] at begins
      exact .here begins

end Reading

/-- If no token is read, the source is not at its end behind the blanks, and the failure is
reported at the place where the reading of the token stops. -/
theorem Cursor.stops_of_nextToken {limits : Limits} {cursor : Cursor} {error : LexicalError}
    (failed : cursor.nextToken limits = .error error) :
    cursor.restartBuffer.skipBlanks.atEnd = false ∧
      ∃ stop, Reading.Stops limits .start cursor.restartBuffer.skipBlanks error.cause stop ∧
        error = stop.failure error.cause := by
  unfold Cursor.nextToken at failed
  generalize cursor.restartBuffer.skipBlanks = start at failed ⊢
  dsimp only at failed
  split at failed
  · cases failed
  · next notEnd =>
    split at failed
    · cases failed
    · have lexemeFailed : start.lexeme limits = .error error := by
        cases read : start.lexeme limits with
        | error other =>
            rw [read] at failed
            cases failed
            rfl
        | ok found =>
            rw [read] at failed
            cases failed
      exact ⟨by simpa using notEnd, Reading.lexeme_fails error lexemeFailed⟩

end Plainspoken
