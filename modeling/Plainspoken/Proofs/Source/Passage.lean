import Mathlib.Data.List.TakeWhile
import Plainspoken.Proofs.Syntax.Tokens

/-!
# What a cursor passes

Whatever is read, the cursor moves on by one character at a time, and never past the end
of the source.  So the characters between two places of a source tell how the cursor gets
from one to the other: the column grows by their number, and all else stays.

Words, marks and numbers hold no character that may break a line.  Only texts and comments
do, besides the line breaks themselves.
-/

namespace Plainspoken

/-- Whether a line break may begin or end with a character. -/
def breaksLine (character : Char) : Bool :=
  character == '\r' || character == '\n' || character == recordSeparator

def LineBreak.characters (form : LineBreak) : List Char :=
  form.first :: form.second.toList

/-- What every form of line break has: its characters break lines, and if there are two,
they differ. -/
structure LineBreak.Proper (form : LineBreak) : Prop where
  breaks : ∀ character ∈ form.characters, breaksLine character = true
  differ : form.second ≠ some form.first

theorem LineBreak.proper_alone {first : Char} (breaks : breaksLine first = true) :
    LineBreak.Proper ⟨first, none⟩ :=
  ⟨by simp [LineBreak.characters, breaks], by simp⟩

theorem LineBreak.proper_pair {first second : Char} (breaks : breaksLine first = true)
    (secondBreaks : breaksLine second = true) (differ : second ≠ first) :
    LineBreak.Proper ⟨first, some second⟩ :=
  ⟨by simp [LineBreak.characters, breaks, secondBreaks], by simpa using differ⟩

/-- Whether a lexeme is a text or a comment. -/
def Lexeme.isBody : Lexeme → Bool
  | .text _ | .comment _ => true
  | _ => false

/-- A property that no character of a line break has. -/
theorem breaksLine_eq_false_of_class {property : Char → Bool} {character : Char}
    (holds : property character = true) (carriageReturn : property '\r' = false)
    (lineFeed : property '\n' = false) (separator : property recordSeparator = false) :
    breaksLine character = false := by
  by_contra breaks
  simp only [breaksLine, Bool.not_eq_false, Bool.or_eq_true, beq_iff_eq] at breaks
  rcases breaks with (rfl | rfl) | rfl
  · rw [carriageReturn] at holds
    cases holds
  · rw [lineFeed] at holds
    cases holds
  · rw [separator] at holds
    cases holds

namespace Cursor

theorem breaksLine_eq_false_of_isWordPart {character : Char}
    (isPart : isWordPart character = true) : breaksLine character = false :=
  breaksLine_eq_false_of_class isPart (by decide) (by decide) (by decide)

theorem breaksLine_eq_false_of_isBrace {character : Char} (brace : isBrace character = true) :
    breaksLine character = false :=
  breaksLine_eq_false_of_class brace (by decide) (by decide) (by decide)

theorem breaksLine_eq_false_of_isDigitSeparator {character : Char}
    (separator : isDigitSeparator character = true) : breaksLine character = false :=
  breaksLine_eq_false_of_class separator (by decide) (by decide) (by decide)

theorem digitValue?_eq_none_of_breaksLine {character : Char} (radix : Nat)
    (breaks : breaksLine character = true) : digitValue? radix character = none := by
  simp only [breaksLine, Bool.or_eq_true, beq_iff_eq] at breaks
  rcases breaks with (rfl | rfl) | rfl <;> rfl

/-! ## Passing characters -/

theorem current_of_ended {cursor : Cursor} (ended : cursor.remaining = []) :
    cursor.current = none := by
  rw [current, ended]
  rfl

section Remaining

variable {cursor : Cursor} {character : Char} {rest : List Char}

theorem current_of_remaining (remaining : cursor.remaining = character :: rest) :
    cursor.current = some character := by
  rw [current, remaining]
  rfl

theorem remaining_advance (remaining : cursor.remaining = character :: rest) :
    cursor.advance.remaining = rest := by
  rw [advance, remaining]
  rfl

end Remaining

/-- The cursor gets to another place of the source over given characters. -/
structure Passes (cursor : Cursor) (characters : List Char) (rest : Cursor) : Prop where
  split : cursor.remaining = characters ++ rest.remaining
  moved : characters.foldl (fun moved _ => moved.advance) cursor = rest

namespace Passes

variable {cursor between rest : Cursor} {characters others : List Char}

theorem refl (cursor : Cursor) : cursor.Passes [] cursor :=
  ⟨rfl, rfl⟩

theorem trans (first : cursor.Passes characters between) (second : between.Passes others rest) :
    cursor.Passes (characters ++ others) rest where
  split := by rw [first.split, second.split, List.append_assoc]
  moved := by rw [List.foldl_append, first.moved, second.moved]

theorem advance {character : Char} (isCurrent : cursor.current = some character) :
    cursor.Passes [character] cursor.advance where
  split := by
    obtain ⟨tail, remaining⟩ := List.head?_eq_some_iff.mp isCurrent
    rw [remaining_advance remaining, remaining]
    rfl
  moved := rfl

theorem advanceWhile (cursor : Cursor) (property : Char → Bool) :
    cursor.Passes (cursor.remaining.takeWhile property) (cursor.advanceWhile property) where
  split := by
    have dropped (passed : List Char) (start : Cursor) :
        (passed.foldl (fun moved _ => moved.advance) start).remaining =
          start.remaining.drop passed.length := by
      induction passed generalizing start with
      | nil => rfl
      | cons _ passed ih => rw [List.foldl_cons, ih, Cursor.advance, List.drop_tail]; rfl
    rw [Cursor.advanceWhile, dropped]
    exact (List.prefix_iff_eq_append.mp (List.takeWhile_prefix property)).symm
  moved := rfl

theorem unique (first : cursor.Passes characters rest) (second : cursor.Passes others rest) :
    characters = others :=
  List.append_cancel_right (first.split.symm.trans second.split)

theorem position_eq (passes : cursor.Passes characters rest) :
    rest.position = ⟨cursor.position.line, cursor.position.column + characters.length⟩ := by
  rw [← passes.moved]
  clear passes
  generalize cursor = start
  induction characters generalizing start with
  | nil => rfl
  | cons _ characters ih =>
      rw [List.foldl_cons, ih]
      simp only [Cursor.advance, Span.nextColumn, List.length_cons, Span.mk.injEq, true_and]
      omega

theorem lineBreak_eq (passes : cursor.Passes characters rest) :
    rest.lineBreak = cursor.lineBreak := by
  rw [← passes.moved]
  clear passes
  generalize cursor = start
  induction characters generalizing start with
  | nil => rfl
  | cons _ characters ih => rw [List.foldl_cons, ih]; rfl

end Passes

theorem remaining_advanceWhile (cursor : Cursor) (property : Char → Bool) :
    (cursor.advanceWhile property).remaining = cursor.remaining.dropWhile property := by
  have split := (Passes.advanceWhile cursor property).split
  have whole := @List.takeWhile_append_dropWhile _ property cursor.remaining
  exact (List.append_cancel_left (whole.trans split)).symm

/-- The cursor gets to another place over characters none of which may break a line. -/
def Crosses (cursor rest : Cursor) : Prop :=
  ∃ characters, cursor.Passes characters rest ∧
    ∀ character ∈ characters, breaksLine character = false

namespace Crosses

variable {cursor between rest : Cursor}

theorem refl (cursor : Cursor) : cursor.Crosses cursor :=
  ⟨[], .refl cursor, List.forall_mem_nil _⟩

theorem trans (first : cursor.Crosses between) (second : between.Crosses rest) :
    cursor.Crosses rest := by
  obtain ⟨characters, passes, unbroken⟩ := first
  obtain ⟨others, passesOthers, othersUnbroken⟩ := second
  exact ⟨characters ++ others, passes.trans passesOthers,
    List.forall_mem_append.mpr ⟨unbroken, othersUnbroken⟩⟩

theorem advanceWhile {property : Char → Bool} (cursor : Cursor)
    (unbroken : ∀ character, property character = true → breaksLine character = false) :
    cursor.Crosses (cursor.advanceWhile property) :=
  ⟨_, .advanceWhile cursor property, fun character member =>
    unbroken character (List.mem_takeWhile_imp member)⟩

theorem advance {character : Char} (isCurrent : cursor.current = some character)
    (unbroken : breaksLine character = false) : cursor.Crosses cursor.advance :=
  ⟨[character], .advance isCurrent, List.forall_mem_singleton.mpr unbroken⟩

theorem next {character : Char} (isCurrent : cursor.current = some character)
    (unbroken : breaksLine character = false) : cursor.Crosses cursor.next :=
  (advance isCurrent unbroken).trans
    (advanceWhile _ fun _ => breaksLine_eq_false_of_isBrace)

theorem nextInNumber {character : Char} (isCurrent : cursor.current = some character)
    (unbroken : breaksLine character = false) : cursor.Crosses cursor.nextInNumber :=
  (advance isCurrent unbroken).trans
    (advanceWhile _ fun _ => breaksLine_eq_false_of_isDigitSeparator)

end Crosses

/-! ## Line breaks -/

section LineBreaks

variable {cursor rest : Cursor} {form : LineBreak}

theorem breaksLine_eq_false_of_lineBreakHere? {character : Char}
    (isCurrent : cursor.current = some character) (absent : cursor.lineBreakHere? = none) :
    breaksLine character = false := by
  by_contra breaks
  simp only [breaksLine, Bool.not_eq_false, Bool.or_eq_true, beq_iff_eq] at breaks
  rcases breaks with (rfl | rfl) | rfl <;>
    simp [lineBreakHere?, isCurrent, recordSeparator] at absent

/-- A character that breaks lines, together with a second one where it follows. -/
theorem proper_of_first {first second : Char} (isCurrent : cursor.current = some first)
    (breaks : breaksLine first = true) (secondBreaks : breaksLine second = true)
    (differ : second ≠ first) :
    LineBreak.Proper ⟨first, cursor.following.filter (· == second)⟩ ∧
      cursor.isOnForm ⟨first, cursor.following.filter (· == second)⟩ = true := by
  have alone : LineBreak.Proper ⟨first, none⟩ ∧ cursor.isOnForm ⟨first, none⟩ = true :=
    ⟨LineBreak.proper_alone breaks, by simp [isOnForm, isOn, isCurrent]⟩
  cases follows : cursor.following with
  | none => exact alone
  | some next =>
      by_cases isSecond : next = second
      · subst isSecond
        rw [Option.filter_some, beq_self_eq_true, if_pos rfl]
        exact ⟨LineBreak.proper_pair breaks secondBreaks differ,
          by simp [isOnForm, isOn, isCurrent, follows]⟩
      · rw [Option.filter_some, if_neg (by simpa using isSecond)]
        exact alone

theorem proper_of_lineBreakHere? (here : cursor.lineBreakHere? = some form) :
    form.Proper ∧ cursor.isOnForm form = true := by
  unfold lineBreakHere? at here
  split at here
  · next isCurrent =>
    cases here
    exact proper_of_first isCurrent (by decide) (by decide) (by decide)
  · next isCurrent =>
    cases here
    exact proper_of_first isCurrent (by decide) (by decide) (by decide)
  · next character _ _ isCurrent =>
    split at here
    · next isSeparator =>
      cases here
      subst isSeparator
      exact ⟨LineBreak.proper_alone rfl, by simp [isOnForm, isOn, isCurrent]⟩
    · cases here
  · cases here

/-- A line break is taken in the form that is known, or in the form it shows. -/
theorem takeLineBreak?_cases (taken : cursor.takeLineBreak? = some rest) :
    ∃ form, (cursor.lineBreak = some form ∨ cursor.lineBreak = none ∧ form.Proper) ∧
      cursor.isOnForm form = true ∧ rest = cursor.passLineBreak form := by
  unfold takeLineBreak? at taken
  split at taken
  · next form known =>
    split at taken
    · next isOn =>
      cases taken
      exact ⟨form, .inl known, isOn, rfl⟩
    · cases taken
  · next unknown =>
    obtain ⟨form, here, rfl⟩ := Option.map_eq_some_iff.mp taken
    obtain ⟨proper, isOn⟩ := proper_of_lineBreakHere? here
    exact ⟨form, .inr ⟨unknown, proper⟩, isOn, rfl⟩

theorem exists_remaining_of_isOnForm (isOn : cursor.isOnForm form = true) :
    ∃ others, cursor.remaining = form.characters ++ others := by
  obtain ⟨onFirst, onSecond⟩ := Bool.and_eq_true_iff.mp isOn
  obtain ⟨tail, remaining⟩ := List.head?_eq_some_iff.mp (eq_of_beq onFirst)
  obtain ⟨first, second⟩ := form
  cases second with
  | none => exact ⟨tail, remaining⟩
  | some second =>
      have follows : cursor.remaining.tail.head? = some second := eq_of_beq onSecond
      rw [remaining] at follows
      obtain ⟨others, rfl⟩ := List.head?_eq_some_iff.mp follows
      exact ⟨others, remaining⟩

/-- Behind a line break its braces are passed, and only then the columns begin. -/
theorem passes_of_passLineBreak (isOn : cursor.isOnForm form = true) :
    ∃ braces between, cursor.Passes (form.characters ++ braces) between ∧
      (∀ brace ∈ braces, isBrace brace = true) ∧
      cursor.passLineBreak form =
        { between with
          position := between.position.nextLine
          lineBreak := some form }.restartBuffer := by
  obtain ⟨others, remaining⟩ := exists_remaining_of_isOnForm isOn
  obtain ⟨first, second⟩ := form
  have onFirst : cursor.Passes [first] cursor.advance := .advance (current_of_remaining remaining)
  cases second with
  | none =>
      exact ⟨_, _, onFirst.trans (.advanceWhile _ isBrace),
        fun _ member => List.mem_takeWhile_imp member, rfl⟩
  | some second =>
      have onSecond : cursor.advance.Passes [second] cursor.advance.advance :=
        .advance (current_of_remaining (remaining_advance remaining))
      exact ⟨_, _, (onFirst.trans onSecond).trans (.advanceWhile _ isBrace),
        fun _ member => List.mem_takeWhile_imp member, rfl⟩

/-- Where no character stands that breaks lines, no line break is taken. -/
theorem takeLineBreak?_of_unbroken
    (known : ∀ shown, cursor.lineBreak = some shown → shown.Proper)
    (unbroken : ∀ character, cursor.current = some character → breaksLine character = false) :
    cursor.takeLineBreak? = none := by
  by_contra present
  obtain ⟨rest, taken⟩ := Option.ne_none_iff_exists'.mp present
  obtain ⟨shown, isKnown, isOn, -⟩ := takeLineBreak?_cases taken
  have proper : shown.Proper := isKnown.elim (known shown) (·.2)
  obtain ⟨others, remaining⟩ := exists_remaining_of_isOnForm isOn
  have isFirst : cursor.current = some shown.first := current_of_remaining remaining
  have breaks := proper.breaks shown.first List.mem_cons_self
  rw [unbroken shown.first isFirst] at breaks
  cases breaks

theorem isOnLineBreak_eq_isSome (cursor : Cursor) :
    cursor.isOnLineBreak = cursor.takeLineBreak?.isSome := by
  unfold isOnLineBreak Cursor.takeLineBreak?
  cases cursor.lineBreak with
  | none => simp
  | some shown => by_cases isOn : cursor.isOnForm shown <;> simp [isOn]

/-- Behind a line break the next line begins. -/
theorem passLineBreak_fields {cursor : Cursor} {others : List Char} (form : LineBreak)
    (remaining : cursor.remaining = form.characters ++ others) :
    (cursor.passLineBreak form).remaining = others.dropWhile isBrace ∧
      (cursor.passLineBreak form).position = cursor.position.nextLine ∧
      (cursor.passLineBreak form).lineBreak = some form := by
  have behind : ∃ between : Cursor, between.remaining = others ∧
      between.position.line = cursor.position.line ∧
      cursor.passLineBreak form =
        { between.advanceWhile isBrace with
          position := (between.advanceWhile isBrace).position.nextLine
          lineBreak := some form }.restartBuffer := by
    obtain ⟨first, second⟩ := form
    cases second with
    | none => exact ⟨cursor.advance, by rw [Cursor.advance, remaining]; rfl, rfl, rfl⟩
    | some second =>
        exact ⟨cursor.advance.advance, by rw [Cursor.advance, Cursor.advance, remaining]; rfl,
          rfl, rfl⟩
  obtain ⟨between, isRest, line, ended⟩ := behind
  rw [ended]
  refine ⟨?_, ?_, rfl⟩
  · rw [← isRest]
    exact remaining_advanceWhile between isBrace
  · change (between.advanceWhile isBrace).position.nextLine = _
    rw [(Passes.advanceWhile between isBrace).position_eq, Span.nextLine, Span.nextLine, line]

end LineBreaks

/-! ## Words and marks -/

theorem crosses_wordParts (budget : Nat) (cursor : Cursor) :
    cursor.Crosses (wordParts budget cursor).2 := by
  induction budget generalizing cursor with
  | zero => exact .refl cursor
  | succ budget ih =>
      unfold wordParts
      split
      · exact .refl cursor
      · next character isCurrent =>
        split
        · next isPart =>
          exact (Crosses.next isCurrent (breaksLine_eq_false_of_isWordPart isPart)).trans (ih _)
        · exact .refl cursor

private theorem crosses_of_word {limits : Limits} {cursor rest : Cursor} {lexeme : Lexeme}
    (read : cursor.word limits = .ok (some (lexeme, rest))) : cursor.Crosses rest := by
  unfold Cursor.word at read
  split at read
  · dsimp only at read
    split at read
    · cases read
    · cases read
      exact crosses_wordParts _ cursor
  · cases read

private theorem crosses_of_longerMark {cursor rest : Cursor} {last : Char}
    {longer shorter mark : Mark} (unbroken : breaksLine last = false)
    (read : cursor.longerMark last longer shorter = (mark, rest)) : cursor.Crosses rest := by
  unfold longerMark at read
  split at read
  · next isOn =>
    cases read
    exact .next (eq_of_beq isOn) unbroken
  · cases read
    exact .refl cursor

private theorem crosses_of_equality {cursor rest : Cursor} {longer shorter mark : Mark}
    (read : cursor.equality longer shorter = .ok (some (mark, rest))) : cursor.Crosses rest := by
  unfold equality at read
  split at read
  · next isOn =>
    have second := crosses_of_longerMark (by decide) (Option.some.inj (Except.ok.inj read))
    exact (Crosses.next (eq_of_beq isOn) (by decide)).trans second
  · cases read

private theorem crosses_of_mark {cursor rest : Cursor} {mark : Mark}
    (read : cursor.mark = .ok (some (mark, rest))) : cursor.Crosses rest := by
  cases isCurrent : cursor.current with
  | none => simp [Cursor.mark, isCurrent] at read
  | some first =>
      have unbroken : breaksLine first = false := by
        by_contra breaks
        simp only [breaksLine, Bool.not_eq_false, Bool.or_eq_true, beq_iff_eq] at breaks
        rcases breaks with (rfl | rfl) | rfl <;>
          simp [Cursor.mark, isCurrent, Mark.single?, recordSeparator] at read
      have moves := Crosses.next isCurrent unbroken
      simp only [Cursor.mark, isCurrent] at read
      split at read
      · cases read
        exact moves
      · split at read
        · exact moves.trans
            (crosses_of_longerMark (by decide) (Option.some.inj (Except.ok.inj read)))
        · exact moves.trans
            (crosses_of_longerMark (by decide) (Option.some.inj (Except.ok.inj read)))
        · exact moves.trans
            (crosses_of_longerMark (by decide) (Option.some.inj (Except.ok.inj read)))
        · exact moves.trans
            (crosses_of_longerMark (by decide) (Option.some.inj (Except.ok.inj read)))
        · exact moves.trans (crosses_of_equality read)
        · exact moves.trans (crosses_of_equality read)
        · cases read

/-! ## Numbers -/

/-- A digit under the cursor does not break the line. -/
theorem exists_current_of_digit {cursor : Cursor} {radix digit : Nat}
    (value : cursor.current.bind (digitValue? radix) = some digit) :
    ∃ character, cursor.current = some character ∧ breaksLine character = false := by
  obtain ⟨character, isCurrent, isDigit⟩ := Option.bind_eq_some_iff.mp value
  refine ⟨character, isCurrent, ?_⟩
  by_contra breaks
  rw [digitValue?_eq_none_of_breaksLine radix (by simpa using breaks)] at isDigit
  cases isDigit

theorem crosses_digitsFrom {limits : Limits} {radix steps value count : Nat} {cursor : Cursor}
    {run : DigitRun} (read : digitsFrom limits radix steps value count cursor = .ok run) :
    cursor.Crosses run.rest := by
  induction steps generalizing value count cursor with
  | zero =>
      cases read
      exact .refl cursor
  | succ steps ih =>
      unfold digitsFrom at read
      split at read
      · cases read
        exact .refl cursor
      · next digit isDigit =>
        obtain ⟨character, isCurrent, unbroken⟩ := exists_current_of_digit isDigit
        dsimp only at read
        split at read
        · cases read
        · exact (Crosses.nextInNumber isCurrent unbroken).trans (ih read)

theorem crosses_wholePartFrom {limits : Limits} {steps : Nat} {whole : Float} {cursor : Cursor}
    {result : Float × Cursor} (read : wholePartFrom limits steps whole cursor = .ok result) :
    cursor.Crosses result.2 := by
  induction steps generalizing whole cursor with
  | zero =>
      cases read
      exact .refl cursor
  | succ steps ih =>
      unfold wholePartFrom at read
      split at read
      · cases read
        exact .refl cursor
      · next digit isDigit =>
        obtain ⟨character, isCurrent, unbroken⟩ := exists_current_of_digit isDigit
        dsimp only at read
        split at read
        · cases read
        · exact (Crosses.nextInNumber isCurrent unbroken).trans (ih read)

private theorem crosses_of_fractionAfter {limits : Limits} {whole : Float} {cursor : Cursor}
    {result : Float × Cursor} (read : fractionAfter limits whole cursor = .ok (some result)) :
    cursor.Crosses result.2 := by
  unfold fractionAfter at read
  split at read
  · next onPoint =>
    dsimp only at read
    split at read
    · obtain ⟨run, digitsRead, ended⟩ := except_bind_ok_iff.mp read
      cases ended
      exact (Crosses.nextInNumber (eq_of_beq onPoint) (by decide)).trans
        (crosses_digitsFrom digitsRead)
    · cases read
  · cases read

private theorem crosses_of_otherBase {limits : Limits} {cursor : Cursor} {result : Float × Cursor}
    (read : otherBase limits cursor = .ok (some result)) : cursor.Crosses result.2 := by
  unfold otherBase at read
  split at read
  · cases read
  · next radix selected =>
    obtain ⟨letter, isCurrent, isLetter⟩ := Option.bind_eq_some_iff.mp selected
    have unbroken : breaksLine letter = false :=
      @breaksLine_eq_false_of_class (fun letter => (radixOf? letter).isSome) letter
        (by simp [isLetter]) (by decide) (by decide) (by decide)
    dsimp only at read
    split at read
    · obtain ⟨run, digitsRead, ended⟩ := except_bind_ok_iff.mp read
      cases ended
      exact (Crosses.nextInNumber isCurrent unbroken).trans (crosses_digitsFrom digitsRead)
    · cases read

private theorem crosses_of_afterLeadingZero {limits : Limits} {cursor : Cursor}
    {result : Float × Cursor}
    (read : afterLeadingZero limits cursor = .ok result) : cursor.Crosses result.2 := by
  obtain ⟨other, otherRead, read⟩ := except_bind_ok_iff.mp read
  cases other with
  | some other =>
      cases read
      exact crosses_of_otherBase otherRead
  | none =>
      obtain ⟨fraction, fractionRead, read⟩ := except_bind_ok_iff.mp read
      cases fraction with
      | some fraction =>
          cases read
          exact crosses_of_fractionAfter fractionRead
      | none =>
          dsimp only at read
          split at read
          · cases read
          · split at read
            · cases read
            · cases read
              exact .refl cursor

private theorem crosses_of_decimal {limits : Limits} {cursor : Cursor} {result : Float × Cursor}
    (read : decimal limits cursor = .ok result) : cursor.Crosses result.2 := by
  obtain ⟨⟨whole, rest⟩, wholeRead, read⟩ := except_bind_ok_iff.mp read
  obtain ⟨fraction, fractionRead, ended⟩ := except_bind_ok_iff.mp read
  have moves := crosses_wholePartFrom wholeRead
  cases ended
  cases fraction with
  | none => exact moves
  | some fraction => exact moves.trans (crosses_of_fractionAfter fractionRead)

private theorem crosses_of_numberLiteral {limits : Limits} {cursor rest : Cursor} {number : Float}
    (read : cursor.numberLiteral limits = .ok (some (number, rest))) : cursor.Crosses rest := by
  unfold numberLiteral at read
  split at read
  · next onZero =>
    obtain ⟨result, zeroRead, same⟩ := except_map_ok_iff.mp read
    cases same
    exact (Crosses.nextInNumber (eq_of_beq onZero) (by decide)).trans
      (crosses_of_afterLeadingZero zeroRead)
  · split at read
    · obtain ⟨result, decimalRead, same⟩ := except_map_ok_iff.mp read
      cases same
      exact crosses_of_decimal decimalRead
    · cases read

/-! ## Texts and comments -/

theorem passes_of_bodyItem {body : BodyKind} {cursor : Cursor} {result : Char × Cursor}
    (read : bodyItem body cursor = .ok result) :
    ∃ characters, cursor.Passes characters result.2 := by
  unfold bodyItem at read
  split at read
  · cases read
  · next isCurrent =>
    dsimp only at read
    split at read
    · cases read
    · next escaped isEscaped =>
      split at read
      · cases read
      · cases read
        exact ⟨_, (Passes.advance isCurrent).trans (.advance isEscaped)⟩
  · next character isCurrent =>
    cases read
    exact ⟨_, .advance isCurrent⟩

theorem passes_of_bodyItems {body : BodyKind} {budget : Nat} {cursor : Cursor}
    {result : List Char × Cursor} (read : bodyItems body budget cursor = .ok result) :
    (∃ characters, cursor.Passes characters result.2) ∧
      (result.1.length < budget → result.2.isOn body.delimiter = true) := by
  induction budget generalizing cursor result with
  | zero =>
      cases read
      exact ⟨⟨[], .refl cursor⟩, fun short => absurd short (Nat.not_lt_zero _)⟩
  | succ budget ih =>
      unfold bodyItems at read
      split at read
      · next closed =>
        cases read
        exact ⟨⟨[], .refl cursor⟩, fun _ => closed⟩
      · obtain ⟨⟨character, between⟩, itemRead, read⟩ := except_bind_ok_iff.mp read
        obtain ⟨⟨others, rest⟩, itemsRead, ended⟩ := except_bind_ok_iff.mp read
        cases ended
        obtain ⟨item, passesItem⟩ := passes_of_bodyItem itemRead
        obtain ⟨⟨items, passesItems⟩, closes⟩ := ih itemsRead
        exact ⟨⟨_, passesItem.trans passesItems⟩, fun short => closes (by simpa using short)⟩

/-- The last characters that a text or a comment takes are its delimiter and the braces
behind it. -/
theorem passes_of_delimitedBody {limits : Limits} {body : BodyKind} {cursor rest : Cursor}
    {lexeme : Lexeme} (read : cursor.delimitedBody limits body = .ok (some (lexeme, rest))) :
    ∃ characters, cursor.Passes characters rest ∧
      ∀ last, characters.getLast? = some last → breaksLine last = false := by
  unfold delimitedBody at read
  split at read
  · next opens =>
    obtain ⟨⟨characters, final⟩, itemsRead, read⟩ := except_bind_ok_iff.mp read
    dsimp only at read
    split at read
    · cases read
    · next fits =>
      cases read
      obtain ⟨⟨items, passesItems⟩, closes⟩ := passes_of_bodyItems itemsRead
      have closed := closes (Nat.lt_succ_of_le (Nat.not_lt.mp fits))
      have unbroken : breaksLine body.delimiter = false := by cases body <;> decide
      have opening := (Passes.advance (eq_of_beq opens)).trans passesItems
      have closing := (Passes.advance (eq_of_beq closed)).trans (.advanceWhile _ isBrace)
      refine ⟨_, opening.trans closing, fun last isLast => ?_⟩
      rw [List.getLast?_append, List.getLast?_append] at isLast
      cases braces : (final.advance.remaining.takeWhile isBrace).getLast? with
      | none =>
          rw [braces] at isLast
          cases isLast
          exact unbroken
      | some brace =>
          rw [braces] at isLast
          cases isLast
          exact breaksLine_eq_false_of_isBrace
            (List.mem_takeWhile_imp (List.mem_of_getLast? braces))
  · cases read

/-! ## Lexemes -/

theorem delimitedBody_eq_none_iff {limits : Limits} {cursor : Cursor} {body : BodyKind} :
    cursor.delimitedBody limits body = .ok none ↔ cursor.isOn body.delimiter = false := by
  unfold delimitedBody
  cases cursor.isOn body.delimiter with
  | false => simp
  | true =>
      simp only [if_true, Bool.true_eq_false, iff_false]
      intro read
      obtain ⟨⟨characters, rest⟩, -, read⟩ := except_bind_ok_iff.mp read
      dsimp only at read
      split at read <;> cases read

theorem isBody_of_delimitedBody {limits : Limits} {body : BodyKind} {cursor rest : Cursor}
    {lexeme : Lexeme} (read : cursor.delimitedBody limits body = .ok (some (lexeme, rest))) :
    lexeme.isBody = true := by
  unfold delimitedBody at read
  split at read
  · obtain ⟨_, -, read⟩ := except_bind_ok_iff.mp read
    dsimp only at read
    split at read
    · cases read
    · cases read
      cases body <;> rfl
  · cases read

/-- The rules that recognise a lexeme, each where those before it do not apply. -/
inductive Recognizes (limits : Limits) (cursor : Cursor) : Lexeme → Cursor → Prop where
  | word {found rest} : cursor.word limits = .ok (some (found, rest)) →
      Recognizes limits cursor found rest
  | mark {mark rest} : cursor.word limits = .ok none → cursor.mark = .ok (some (mark, rest)) →
      Recognizes limits cursor (.mark mark) rest
  | number {number rest} : cursor.word limits = .ok none → cursor.mark = .ok none →
      cursor.numberLiteral limits = .ok (some (number, rest)) →
      Recognizes limits cursor (.number number) rest
  | text {found rest} : cursor.word limits = .ok none → cursor.mark = .ok none →
      cursor.numberLiteral limits = .ok none →
      cursor.delimitedBody limits .text = .ok (some (found, rest)) →
      Recognizes limits cursor found rest
  | comment {found rest} : cursor.word limits = .ok none → cursor.mark = .ok none →
      cursor.numberLiteral limits = .ok none → cursor.delimitedBody limits .text = .ok none →
      cursor.delimitedBody limits .comment = .ok (some (found, rest)) →
      Recognizes limits cursor found rest

theorem lexeme_eq_ok_iff {limits : Limits} {cursor rest : Cursor} {found : Lexeme} :
    cursor.lexeme limits = .ok (found, rest) ↔ cursor.Recognizes limits found rest := by
  constructor
  · intro read
    obtain ⟨word, wordRead, read⟩ := except_bind_ok_iff.mp read
    cases word with
    | some word =>
        cases read
        exact .word wordRead
    | none =>
    obtain ⟨mark, markRead, read⟩ := except_bind_ok_iff.mp read
    cases mark with
    | some mark =>
        cases read
        exact .mark wordRead markRead
    | none =>
    obtain ⟨number, numberRead, read⟩ := except_bind_ok_iff.mp read
    cases number with
    | some number =>
        cases read
        exact .number wordRead markRead numberRead
    | none =>
    obtain ⟨text, textRead, read⟩ := except_bind_ok_iff.mp read
    cases text with
    | some text =>
        cases read
        exact .text wordRead markRead numberRead textRead
    | none =>
    obtain ⟨comment, commentRead, read⟩ := except_bind_ok_iff.mp read
    cases comment with
    | some comment =>
        cases read
        exact .comment wordRead markRead numberRead textRead commentRead
    | none => cases read
  · intro recognizes
    unfold Cursor.lexeme
    cases recognizes with
    | word wordRead =>
        rw [wordRead]
        rfl
    | mark wordRead markRead =>
        rw [wordRead, markRead]
        rfl
    | number wordRead markRead numberRead =>
        rw [wordRead, markRead, numberRead]
        rfl
    | text wordRead markRead numberRead textRead =>
        rw [wordRead, markRead, numberRead, textRead]
        rfl
    | comment wordRead markRead numberRead textRead commentRead =>
        rw [wordRead, markRead, numberRead, textRead, commentRead]
        rfl

/-- Only a text or a comment takes characters that may break a line, and not as the last. -/
theorem passes_of_lexeme {limits : Limits} {cursor rest : Cursor} {found : Lexeme}
    (read : cursor.lexeme limits = .ok (found, rest)) :
    ∃ characters, cursor.Passes characters rest ∧
      (∀ last, characters.getLast? = some last → breaksLine last = false) ∧
      (found.isBody = false → ∀ character ∈ characters, breaksLine character = false) := by
  have ofCrosses : cursor.Crosses rest → ∃ characters, cursor.Passes characters rest ∧
      (∀ last, characters.getLast? = some last → breaksLine last = false) ∧
      (found.isBody = false → ∀ character ∈ characters, breaksLine character = false) := by
    rintro ⟨characters, passes, unbroken⟩
    exact ⟨characters, passes, fun last isLast => unbroken last (List.mem_of_getLast? isLast),
      fun _ => unbroken⟩
  have ofBody {body : BodyKind}
      (bodyRead : cursor.delimitedBody limits body = .ok (some (found, rest))) :
      ∃ characters, cursor.Passes characters rest ∧
        (∀ last, characters.getLast? = some last → breaksLine last = false) ∧
        (found.isBody = false → ∀ character ∈ characters, breaksLine character = false) := by
    obtain ⟨characters, passes, unbroken⟩ := passes_of_delimitedBody bodyRead
    refine ⟨characters, passes, unbroken, fun other => ?_⟩
    rw [isBody_of_delimitedBody bodyRead] at other
    cases other
  cases lexeme_eq_ok_iff.mp read with
  | word wordRead => exact ofCrosses (crosses_of_word wordRead)
  | mark _ markRead => exact ofCrosses (crosses_of_mark markRead)
  | number _ _ numberRead => exact ofCrosses (crosses_of_numberLiteral numberRead)
  | text _ _ _ textRead => exact ofBody textRead
  | comment _ _ _ _ commentRead => exact ofBody commentRead

private theorem exists_wordLexeme_of_word {limits : Limits} {cursor rest : Cursor} {found : Lexeme}
    (read : cursor.word limits = .ok (some (found, rest))) : ∃ word, found = wordLexeme word := by
  unfold Cursor.word at read
  split at read
  · dsimp only at read
    split at read
    · cases read
    · cases read
      exact ⟨_, rfl⟩
  · cases read

/-- A lexeme is neither a line break nor the end of the source. -/
theorem ne_of_lexeme {limits : Limits} {cursor rest : Cursor} {found : Lexeme}
    (read : cursor.lexeme limits = .ok (found, rest)) :
    found ≠ .lineBreak ∧ found ≠ .endOfSource := by
  have ofBody {body : BodyKind}
      (bodyRead : cursor.delimitedBody limits body = .ok (some (found, rest))) :
      found ≠ .lineBreak ∧ found ≠ .endOfSource := by
    have isBody := isBody_of_delimitedBody bodyRead
    constructor <;> rintro rfl <;> cases isBody
  cases lexeme_eq_ok_iff.mp read with
  | word wordRead =>
      obtain ⟨word, rfl⟩ := exists_wordLexeme_of_word wordRead
      unfold wordLexeme
      split <;> simp
  | mark => simp
  | number => simp
  | text _ _ _ textRead => exact ofBody textRead
  | comment _ _ _ _ commentRead => exact ofBody commentRead

/-! ## Tokens -/

/-- A token is the end of the source, a line break or a lexeme, behind the blanks. -/
theorem nextToken_cases {limits : Limits} {cursor rest : Cursor} {token : Token}
    (read : cursor.nextToken limits = .ok (token, rest)) :
    token.span = cursor.restartBuffer.skipBlanks.position ∧
      (token.lexeme = .endOfSource ∧ rest = cursor.restartBuffer.skipBlanks ∨
        token.lexeme = .lineBreak ∧
          cursor.restartBuffer.skipBlanks.takeLineBreak? = some rest ∨
        token.lexeme ≠ .endOfSource ∧ token.lexeme ≠ .lineBreak ∧
          cursor.restartBuffer.skipBlanks.lexeme limits = .ok (token.lexeme, rest)) := by
  unfold nextToken at read
  dsimp only at read
  split at read
  · cases read
    exact ⟨rfl, .inl ⟨rfl, rfl⟩⟩
  · split at read
    · next taken =>
      cases read
      exact ⟨rfl, .inr (.inl ⟨rfl, taken⟩)⟩
    · obtain ⟨⟨found, rest'⟩, lexemeRead, ended⟩ := except_bind_ok_iff.mp read
      cases ended
      obtain ⟨notBreak, notEnd⟩ := ne_of_lexeme lexemeRead
      exact ⟨rfl, .inr (.inr ⟨notEnd, notBreak, lexemeRead⟩)⟩

end Cursor

end Plainspoken
