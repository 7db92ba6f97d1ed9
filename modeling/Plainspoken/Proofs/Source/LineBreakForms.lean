import Plainspoken.Proofs.Source.Parallel

/-!
# Forms of line breaks

A source may break its lines in any of five forms, and the first line break shows which.  A
source whose lines end with a line feed has the same tokens, at the same positions, as the one
in which each line feed is replaced by another form.

The two sources are read side by side.  Between line breaks their cursors stand on the same
characters; at a line break each knows the form of its own source, or is about to learn it.
-/

namespace Plainspoken

namespace LineBreak

def otherForms : List LineBreak :=
  [⟨'\r', some '\n'⟩, ⟨'\r', none⟩, ⟨'\n', some '\r'⟩, ⟨recordSeparator, none⟩]

/-- Characters with another form of line break in place of each line feed. -/
def rewrite (form : LineBreak) (characters : List Char) : List Char :=
  characters.flatMap fun character => if character = '\n' then form.characters else [character]

variable {form : LineBreak} {characters others : List Char} {character : Char}

theorem proper_of_mem_otherForms (member : form ∈ otherForms) : form.Proper := by
  simp only [otherForms, List.mem_cons, List.not_mem_nil, or_false] at member
  rcases member with rfl | rfl | rfl | rfl
  · exact proper_pair rfl rfl (by decide)
  · exact proper_alone rfl
  · exact proper_pair rfl rfl (by decide)
  · exact proper_alone rfl

theorem rewrite_append :
    form.rewrite (characters ++ others) = form.rewrite characters ++ form.rewrite others :=
  List.flatMap_append

theorem rewrite_break : form.rewrite ('\n' :: others) = form.characters ++ form.rewrite others :=
  List.flatMap_cons

theorem rewrite_cons (other : character ≠ '\n') :
    form.rewrite (character :: others) = character :: form.rewrite others := by
  rw [rewrite, List.flatMap_cons, if_neg other]
  rfl

private theorem rewrite_of_not_mem (absent : '\n' ∉ characters) :
    form.rewrite characters = characters := by
  induction characters with
  | nil => rfl
  | cons character characters ih =>
      rw [List.mem_cons, not_or] at absent
      rw [rewrite_cons (Ne.symm absent.1), ih absent.2]

/-- A line feed that is not part of the form is gone. -/
theorem head?_rewrite_ne (absent : '\n' ∉ form.characters) :
    (form.rewrite characters).head? ≠ some '\n' := by
  cases characters with
  | nil => simp [rewrite]
  | cons character characters =>
      by_cases breaks : character = '\n'
      · subst breaks
        rw [rewrite_break]
        intro isHead
        have isFirst : form.first = '\n' := Option.some.inj isHead
        exact absent (isFirst ▸ List.mem_cons_self)
      · rw [rewrite_cons breaks]
        simpa using breaks

/-- Up to the first line break nothing has changed. -/
theorem takeWhile_rewrite {property : Char → Bool} (proper : form.Proper)
    (unbroken : ∀ character, property character = true → breaksLine character = false) :
    (form.rewrite characters).takeWhile property = characters.takeWhile property := by
  have stops {character : Char} (breaks : breaksLine character = true) :
      ¬ property character = true := by
    intro holds
    rw [unbroken character holds] at breaks
    cases breaks
  induction characters with
  | nil => rfl
  | cons character characters ih =>
      by_cases breaks : character = '\n'
      · subst breaks
        rw [rewrite_break, LineBreak.characters, List.cons_append,
          List.takeWhile_cons_of_neg (stops (proper.breaks _ List.mem_cons_self)),
          List.takeWhile_cons_of_neg (stops (by decide))]
      · rw [rewrite_cons breaks, List.takeWhile_cons, List.takeWhile_cons, ih]

theorem dropWhile_rewrite {property : Char → Bool} (proper : form.Proper)
    (unbroken : ∀ character, property character = true → breaksLine character = false) :
    (form.rewrite characters).dropWhile property = form.rewrite (characters.dropWhile property) := by
  have absent : '\n' ∉ characters.takeWhile property := by
    intro member
    have breaks := unbroken '\n' (List.mem_takeWhile_imp member)
    cases breaks
  refine @List.append_cancel_left _ (characters.takeWhile property) _ _ ?_
  calc characters.takeWhile property ++ (form.rewrite characters).dropWhile property
      = form.rewrite characters := by
        rw [← takeWhile_rewrite proper unbroken, List.takeWhile_append_dropWhile]
    _ = form.rewrite (characters.takeWhile property ++ characters.dropWhile property) := by
        rw [List.takeWhile_append_dropWhile]
    _ = characters.takeWhile property ++ form.rewrite (characters.dropWhile property) := by
        rw [rewrite_append, rewrite_of_not_mem absent]

end LineBreak

namespace Cursor

/-- Cursors at the same place of a source and of the one in which line breaks have another
form. -/
structure Similar (form : LineBreak) (left right : Cursor) : Prop where
  remaining : right.remaining = form.rewrite left.remaining
  position : right.position = left.position
  lineBreak : left.lineBreak = none ∧ right.lineBreak = none ∨
    left.lineBreak = some ⟨'\n', none⟩ ∧ right.lineBreak = some form
  noReturn : '\r' ∉ left.remaining
  noSeparator : recordSeparator ∉ left.remaining

namespace Similar

variable {form : LineBreak} {left right : Cursor}

theorem restartBuffer (similar : Similar form left right) :
    Similar form left.restartBuffer right.restartBuffer :=
  ⟨similar.remaining, similar.position, similar.lineBreak, similar.noReturn, similar.noSeparator⟩

/-- Similar cursors are at the end, on the same character, or each on a line break. -/
theorem cases_remaining (similar : Similar form left right) :
    (left.remaining = [] ∧ right.remaining = []) ∨
    (∃ character others, breaksLine character = false ∧ left.remaining = character :: others ∧
      right.remaining = character :: form.rewrite others) ∨
    ∃ others, left.remaining = '\n' :: others ∧
      right.remaining = form.characters ++ form.rewrite others := by
  have noReturn := similar.noReturn
  have noSeparator := similar.noSeparator
  rw [similar.remaining]
  cases characters : left.remaining with
  | nil => exact .inl ⟨rfl, rfl⟩
  | cons character others =>
      rw [characters, List.mem_cons, not_or] at noReturn noSeparator
      by_cases breaks : character = '\n'
      · subst breaks
        exact .inr (.inr ⟨others, rfl, LineBreak.rewrite_break⟩)
      · have unbroken : breaksLine character = false := by
          simp [breaksLine, breaks, Ne.symm noReturn.1, Ne.symm noSeparator.1]
        exact .inr (.inl ⟨character, others, unbroken, rfl, LineBreak.rewrite_cons breaks⟩)

/-- Passing the same characters keeps cursors similar. -/
theorem passes {characters : List Char} {leftRest rightRest : Cursor}
    (similar : Similar form left right) (leftMoves : left.Passes characters leftRest)
    (rightMoves : right.Passes characters rightRest) (unbroken : '\n' ∉ characters) :
    Similar form leftRest rightRest where
  remaining := by
    have same := similar.remaining
    rw [leftMoves.split, rightMoves.split, LineBreak.rewrite_append,
      LineBreak.rewrite_of_not_mem unbroken] at same
    exact List.append_cancel_left same
  position := by rw [leftMoves.position_eq, rightMoves.position_eq, similar.position]
  lineBreak := by
    rw [leftMoves.lineBreak_eq, rightMoves.lineBreak_eq]
    exact similar.lineBreak
  noReturn := fun member => similar.noReturn (by
    rw [leftMoves.split]
    exact List.mem_append_right _ member)
  noSeparator := fun member => similar.noSeparator (by
    rw [leftMoves.split]
    exact List.mem_append_right _ member)

private theorem current_eq {character : Char} (similar : Similar form left right)
    (isCurrent : left.current = some character) (other : character ≠ '\n') :
    right.current = some character := by
  obtain ⟨others, remaining⟩ := List.head?_eq_some_iff.mp isCurrent
  rw [current, similar.remaining, remaining, LineBreak.rewrite_cons other]
  rfl

theorem advance {character : Char} (similar : Similar form left right)
    (isCurrent : left.current = some character) (other : character ≠ '\n') :
    Similar form left.advance right.advance := by
  exact similar.passes (.advance isCurrent) (.advance (similar.current_eq isCurrent other))
    (by simpa using Ne.symm other)

theorem advanceWhile {property : Char → Bool} (proper : form.Proper)
    (similar : Similar form left right)
    (unbroken : ∀ character, property character = true → breaksLine character = false) :
    Similar form (left.advanceWhile property) (right.advanceWhile property) := by
  have rightMoves := Passes.advanceWhile right property
  rw [similar.remaining, LineBreak.takeWhile_rewrite proper unbroken] at rightMoves
  refine similar.passes (.advanceWhile left property) rightMoves fun member => ?_
  have breaks := unbroken '\n' (List.mem_takeWhile_imp member)
  cases breaks

theorem next {character : Char} (proper : form.Proper) (similar : Similar form left right)
    (isCurrent : left.current = some character) (other : character ≠ '\n') :
    Similar form left.next right.next :=
  (similar.advance isCurrent other).advanceWhile proper fun _ => breaksLine_eq_false_of_isBrace

theorem parallel (proper : form.Proper) : Parallel (Similar form) where
  current := by
    intro left right similar
    obtain ⟨ended, otherEnded⟩ | ⟨character, others, -, remaining, otherRemaining⟩ |
      ⟨others, remaining, otherRemaining⟩ := similar.cases_remaining
    · exact .inl (by rw [current, current, ended, otherEnded])
    · exact .inl (by rw [current, current, remaining, otherRemaining]; rfl)
    · exact .inr ⟨'\n', form.first, current_of_remaining remaining,
        current_of_remaining otherRemaining, by decide, proper.breaks _ List.mem_cons_self⟩
  next := by
    intro left right character similar isCurrent plain
    refine similar.next proper isCurrent ?_
    rintro rfl
    cases plain
  nextInNumber := by
    intro left right character similar isCurrent plain
    refine Similar.advanceWhile proper (similar.advance isCurrent ?_)
      fun _ => breaksLine_eq_false_of_isDigitSeparator
    rintro rfl
    cases plain

/-! ## Blanks and line breaks -/

private theorem atEnd_eq (similar : Similar form left right) : left.atEnd = right.atEnd := by
  unfold atEnd
  obtain ⟨ended, otherEnded⟩ | ⟨character, others, -, remaining, otherRemaining⟩ |
    ⟨others, remaining, otherRemaining⟩ := similar.cases_remaining
  · rw [ended, otherEnded]
  · rw [remaining, otherRemaining]
    rfl
  · rw [remaining, otherRemaining]
    rfl

/-- A source in which each line feed is replaced shows the form that replaces it. -/
theorem lineBreakHere?_of_form {cursor : Cursor} {others : List Char}
    (member : form ∈ LineBreak.otherForms)
    (remaining : cursor.remaining = form.characters ++ form.rewrite others) :
    cursor.lineBreakHere? = some form := by
  have isCurrent : cursor.current = some form.first := current_of_remaining remaining
  have follows : cursor.following = (form.second.toList ++ form.rewrite others).head? := by
    rw [following, remaining]
    rfl
  simp only [LineBreak.otherForms, List.mem_cons, List.not_mem_nil, or_false] at member
  rcases member with rfl | rfl | rfl | rfl
  · simp [lineBreakHere?, isCurrent, follows]
  · have notPaired := @LineBreak.head?_rewrite_ne ⟨'\r', none⟩ others (by decide)
    have alone : cursor.following.filter (· == '\n') = none := by
      rw [follows, Option.toList_none, List.nil_append]
      cases head : (LineBreak.rewrite ⟨'\r', none⟩ others).head? with
      | none => rfl
      | some next =>
          rw [head] at notPaired
          simpa using notPaired
    simp only [lineBreakHere?, isCurrent, alone]
  · simp [lineBreakHere?, isCurrent, follows]
  · simp [lineBreakHere?, isCurrent, recordSeparator]

/-- On a line feed one source breaks its line, and the other in its own form. -/
theorem takeLineBreak?_of_break {others : List Char} (member : form ∈ LineBreak.otherForms)
    (similar : Similar form left right) (remaining : left.remaining = '\n' :: others) :
    left.takeLineBreak? = some (left.passLineBreak ⟨'\n', none⟩) ∧
      right.takeLineBreak? = some (right.passLineBreak form) := by
  have otherRemaining : right.remaining = form.characters ++ form.rewrite others := by
    rw [similar.remaining, remaining, LineBreak.rewrite_break]
  have isHere : left.lineBreakHere? = some ⟨'\n', none⟩ := by
    have noReturn := similar.noReturn
    rw [remaining, List.mem_cons, not_or] at noReturn
    have follows : left.following.filter (· == '\r') = none := by
      rw [following, remaining, List.tail_cons]
      cases others with
      | nil => rfl
      | cons next others =>
          rw [List.mem_cons, not_or] at noReturn
          simp [Ne.symm noReturn.2.1]
    have isCurrent : left.current = some '\n' := current_of_remaining remaining
    simp only [lineBreakHere?, isCurrent, follows]
  have isHereOther := lineBreakHere?_of_form member otherRemaining
  have isOn : right.isOnForm form = true := (proper_of_lineBreakHere? isHereOther).2
  have isOnLeft := (proper_of_lineBreakHere? isHere).2
  unfold takeLineBreak?
  obtain ⟨unknown, otherUnknown⟩ | ⟨known, otherKnown⟩ := similar.lineBreak
  · simp only [unknown, otherUnknown, isHere, isHereOther, Option.map_some, and_self]
  · simp only [known, otherKnown, isOn, isOnLeft, if_true, and_self]

theorem known_proper (proper : form.Proper) (similar : Similar form left right) :
    (∀ shown, left.lineBreak = some shown → shown.Proper) ∧
      ∀ shown, right.lineBreak = some shown → shown.Proper := by
  obtain ⟨unknown, otherUnknown⟩ | ⟨isShown, otherShown⟩ := similar.lineBreak
  · simp [unknown, otherUnknown]
  · simp only [isShown, otherShown, Option.some.injEq, forall_eq']
    exact ⟨LineBreak.proper_alone rfl, proper⟩

/-- Behind a line break both are at the start of the same line. -/
theorem passLineBreak {others : List Char} (proper : form.Proper)
    (similar : Similar form left right) (remaining : left.remaining = '\n' :: others) :
    Similar form (left.passLineBreak ⟨'\n', none⟩) (right.passLineBreak form) := by
  have otherRemaining : right.remaining = form.characters ++ form.rewrite others := by
    rw [similar.remaining, remaining, LineBreak.rewrite_break]
  obtain ⟨rest, position, shown⟩ := @passLineBreak_fields left others ⟨'\n', none⟩ remaining
  obtain ⟨otherRest, otherPosition, otherShown⟩ := passLineBreak_fields form otherRemaining
  have inside : others.dropWhile isBrace ⊆ left.remaining := by
    rw [remaining]
    exact List.Subset.trans (List.dropWhile_subset _) (List.subset_cons_self _ _)
  refine ⟨?_, ?_, .inr ⟨shown, otherShown⟩, ?_, ?_⟩
  · rw [rest, otherRest]
    exact LineBreak.dropWhile_rewrite proper fun _ => breaksLine_eq_false_of_isBrace
  · rw [position, otherPosition, similar.position]
  · rw [rest]
    exact fun member => similar.noReturn (inside member)
  · rw [rest]
    exact fun member => similar.noSeparator (inside member)

/-- A line break is taken from both sources or from neither. -/
theorem takeLineBreak? (member : form ∈ LineBreak.otherForms) (similar : Similar form left right) :
    left.takeLineBreak? = none ∧ right.takeLineBreak? = none ∨
      ∃ rest otherRest, left.takeLineBreak? = some rest ∧
        right.takeLineBreak? = some otherRest ∧ Similar form rest otherRest := by
  have proper := LineBreak.proper_of_mem_otherForms member
  obtain ⟨known, otherKnown⟩ := similar.known_proper proper
  obtain ⟨ended, otherEnded⟩ | ⟨character, others, unbroken, remaining, otherRemaining⟩ |
    ⟨others, remaining, -⟩ := similar.cases_remaining
  · refine .inl ⟨takeLineBreak?_of_unbroken known ?_, takeLineBreak?_of_unbroken otherKnown ?_⟩
    · simp [current_of_ended ended]
    · simp [current_of_ended otherEnded]
  · refine .inl ⟨takeLineBreak?_of_unbroken known ?_, takeLineBreak?_of_unbroken otherKnown ?_⟩
    · simpa [current_of_remaining remaining] using unbroken
    · simpa [current_of_remaining otherRemaining] using unbroken
  · obtain ⟨taken, otherTaken⟩ := similar.takeLineBreak?_of_break member remaining
    exact .inr ⟨_, _, taken, otherTaken, similar.passLineBreak proper remaining⟩

private theorem isOnSpecial_eq (member : form ∈ LineBreak.otherForms)
    (similar : Similar form left right) :
    left.isOnSpecial = right.isOnSpecial := by
  unfold isOnSpecial
  rw [similar.atEnd_eq, isOnLineBreak_eq_isSome, isOnLineBreak_eq_isSome]
  obtain ⟨absent, otherAbsent⟩ | ⟨rest, otherRest, taken, otherTaken, -⟩ :=
    similar.takeLineBreak? member
  · rw [absent, otherAbsent]
  · rw [taken, otherTaken]
    rfl

/-- Blanks other than line breaks are the same in both sources, and similar cursors pass them
together. -/
theorem blank_cases (member : form ∈ LineBreak.otherForms) (similar : Similar form left right) :
    ((left.isOnClass Character.isWhiteSpace && !left.isOnSpecial) = false ∧
      (right.isOnClass Character.isWhiteSpace && !right.isOnSpecial) = false) ∨
    (left.isOnClass Character.isWhiteSpace && !left.isOnSpecial) = true ∧
      (right.isOnClass Character.isWhiteSpace && !right.isOnSpecial) = true ∧
      0 < left.ahead ∧ 0 < right.ahead ∧ Similar form left.next right.next := by
  have proper := LineBreak.proper_of_mem_otherForms member
  rw [← similar.isOnSpecial_eq member]
  obtain ⟨ended, otherEnded⟩ | ⟨character, others, unbroken, remaining, otherRemaining⟩ |
    ⟨others, remaining, otherRemaining⟩ := similar.cases_remaining
  · exact .inl (by simp [isOnClass, current, ended, otherEnded])
  · have isCurrent : left.current = some character := current_of_remaining remaining
    have isOther : right.current = some character := current_of_remaining otherRemaining
    have other : character ≠ '\n' := by
      rintro rfl
      cases unbroken
    unfold isOnClass
    rw [isCurrent, isOther]
    cases blank : (some character).any Character.isWhiteSpace && !left.isOnSpecial with
    | false => exact .inl ⟨rfl, rfl⟩
    | true =>
        exact .inr ⟨rfl, rfl, ahead_pos_of_current isCurrent, ahead_pos_of_current isOther,
          similar.next proper isCurrent other⟩
  · obtain ⟨taken, -⟩ := similar.takeLineBreak?_of_break member remaining
    have special : left.isOnSpecial = true := by
      simp [isOnSpecial, isOnLineBreak_eq_isSome, taken]
    exact .inl (by simp [special])

theorem skipBlanksUpTo {steps otherSteps : Nat} (member : form ∈ LineBreak.otherForms)
    (similar : Similar form left right) (enough : left.ahead ≤ steps)
    (otherEnough : right.ahead ≤ otherSteps) :
    Similar form (left.skipBlanksUpTo steps) (right.skipBlanksUpTo otherSteps) := by
  have stops {cursor : Cursor} {steps : Nat}
      (ended : (cursor.isOnClass Character.isWhiteSpace && !cursor.isOnSpecial) = false) :
      cursor.skipBlanksUpTo steps = cursor := by
    cases steps with
    | zero => rfl
    | succ steps => rw [Cursor.skipBlanksUpTo, ended, if_neg Bool.false_ne_true]
  induction steps generalizing left right otherSteps with
  | zero =>
      obtain ⟨ended, otherEnded⟩ | ⟨-, -, present, -⟩ := similar.blank_cases member
      · rw [stops ended, stops otherEnded]
        exact similar
      · omega
  | succ steps ih =>
      obtain ⟨ended, otherEnded⟩ | ⟨blank, otherBlank, -, present, nextSimilar⟩ :=
        similar.blank_cases member
      · rw [stops ended, stops otherEnded]
        exact similar
      · obtain ⟨otherSteps, rfl⟩ := Nat.exists_eq_succ_of_ne_zero (by omega : otherSteps ≠ 0)
        have moved := ahead_next_le left
        have otherMoved := ahead_next_le right
        rw [Cursor.skipBlanksUpTo, Cursor.skipBlanksUpTo, if_pos blank, if_pos otherBlank]
        exact ih nextSimilar (by omega) (by omega)

theorem skipBlanks (member : form ∈ LineBreak.otherForms) (similar : Similar form left right) :
    Similar form left.skipBlanks right.skipBlanks :=
  similar.skipBlanksUpTo member (Nat.le_refl _) (Nat.le_refl _)

/-! ## Texts and comments -/

theorem bodyItem {body : BodyKind} {rest : Cursor} {character : Char} {characters : List Char}
    (similar : Similar form left right) (read : left.bodyItem body = .ok (character, rest))
    (moves : left.Passes characters rest) (unbroken : '\n' ∉ characters) :
    ∃ otherRest, right.bodyItem body = .ok (character, otherRest) ∧
      Similar form rest otherRest := by
  unfold Cursor.bodyItem at read ⊢
  split at read
  · cases read
  · next isCurrent =>
    have nextSimilar := similar.advance isCurrent (by decide)
    rw [similar.current_eq isCurrent (by decide)]
    dsimp only at read ⊢
    split at read
    · cases read
    · next escaped isEscaped =>
      split at read
      · cases read
      · next stands =>
        have other : escaped ≠ '\n' := by
          rintro rfl
          cases stands
        cases read
        rw [nextInBody, nextSimilar.current_eq isEscaped other]
        simp only [stands]
        exact ⟨_, rfl, nextSimilar.advance isEscaped other⟩
  · next plain notEscape isCurrent =>
    cases read
    have other : character ≠ '\n' := by
      rintro rfl
      rw [moves.unique (.advance isCurrent)] at unbroken
      exact unbroken List.mem_cons_self
    rw [similar.current_eq isCurrent other]
    refine ⟨right.advance, ?_, similar.advance isCurrent other⟩
    split
    · next isNone => cases isNone
    · next isEscape =>
      cases isEscape
      exact absurd rfl notEscape
    · next isSame =>
      cases isSame
      rfl

theorem bodyItems {body : BodyKind} {budget : Nat} {rest : Cursor} {items characters : List Char}
    (proper : form.Proper) (similar : Similar form left right)
    (read : left.bodyItems body budget = .ok (items, rest))
    (moves : left.Passes characters rest) (unbroken : '\n' ∉ characters) :
    ∃ otherRest, right.bodyItems body budget = .ok (items, otherRest) ∧
      Similar form rest otherRest := by
  induction budget generalizing left right items characters with
  | zero =>
      cases read
      exact ⟨right, rfl, similar⟩
  | succ budget ih =>
      have sameEnd := (parallel proper).isOn_eq body.delimiter similar (by cases body <;> decide)
      unfold Cursor.bodyItems at read ⊢
      rw [← sameEnd]
      split at read
      · next closed =>
        cases read
        exact ⟨right, if_pos closed, similar⟩
      · next closes =>
        rw [if_neg closes]
        obtain ⟨⟨item, between⟩, itemRead, read⟩ := except_bind_ok_iff.mp read
        obtain ⟨⟨others, ending⟩, itemsRead, ended⟩ := except_bind_ok_iff.mp read
        cases ended
        obtain ⟨itemCharacters, itemMoves⟩ := passes_of_bodyItem itemRead
        obtain ⟨⟨otherCharacters, otherMoves⟩, -⟩ := passes_of_bodyItems itemsRead
        rw [moves.unique (itemMoves.trans otherMoves), List.mem_append, not_or] at unbroken
        obtain ⟨otherBetween, otherItem, betweenSimilar⟩ :=
          similar.bodyItem itemRead itemMoves unbroken.1
        obtain ⟨otherRest, otherItems, restSimilar⟩ :=
          ih betweenSimilar itemsRead otherMoves unbroken.2
        refine ⟨otherRest, except_bind_ok_iff.mpr ⟨_, otherItem, ?_⟩, restSimilar⟩
        exact except_bind_ok_iff.mpr ⟨_, otherItems, rfl⟩

theorem delimitedBody {limits : Limits} {body : BodyKind} {rest : Cursor} {found : Lexeme}
    {characters : List Char} (proper : form.Proper) (similar : Similar form left right)
    (read : left.delimitedBody limits body = .ok (some (found, rest)))
    (moves : left.Passes characters rest) (unbroken : '\n' ∉ characters) :
    ∃ otherRest, right.delimitedBody limits body = .ok (some (found, otherRest)) ∧
      Similar form rest otherRest := by
  have sameStart := (parallel proper).isOn_eq body.delimiter similar (by cases body <;> decide)
  have other : body.delimiter ≠ '\n' := by cases body <;> decide
  unfold Cursor.delimitedBody at read ⊢
  rw [← sameStart]
  split at read
  · next opens =>
    rw [if_pos opens]
    obtain ⟨⟨items, final⟩, itemsRead, read⟩ := except_bind_ok_iff.mp read
    dsimp only at read
    split at read
    · cases read
    · next fits =>
      cases read
      obtain ⟨⟨itemCharacters, itemMoves⟩, closes⟩ := passes_of_bodyItems itemsRead
      have closed := closes (Nat.lt_succ_of_le (Nat.not_lt.mp fits))
      have whole := ((Passes.advance (eq_of_beq opens)).trans itemMoves).trans
        ((Passes.advance (eq_of_beq closed)).trans (.advanceWhile _ isBrace))
      rw [moves.unique whole, List.mem_append, List.mem_append, not_or, not_or] at unbroken
      obtain ⟨otherFinal, otherItems, finalSimilar⟩ :=
        (similar.advance (eq_of_beq opens) other).bodyItems proper itemsRead itemMoves
          unbroken.1.2
      refine ⟨otherFinal.next, except_bind_ok_iff.mpr ⟨_, otherItems, ?_⟩,
        finalSimilar.next proper (eq_of_beq closed) other⟩
      dsimp only
      rw [if_neg fits]
      rfl
  · cases read

/-! ## Tokens -/

theorem nextToken {limits : Limits} {rest : Cursor} {token : Token}
    (member : form ∈ LineBreak.otherForms) (similar : Similar form left right)
    (read : left.nextToken limits = .ok (token, rest))
    (unbroken : token.lexeme.isBody = true →
      '\n' ∉ Finding.characters ⟨left.restartBuffer.skipBlanks, token, rest⟩) :
    ∃ otherRest, right.nextToken limits = .ok (token, otherRest) ∧
      Similar form rest otherRest := by
  have proper := LineBreak.proper_of_mem_otherForms member
  have start := similar.restartBuffer.skipBlanks member
  unfold Cursor.nextToken at read ⊢
  dsimp only at read ⊢
  rw [← start.atEnd_eq]
  split at read
  · next ended =>
    rw [if_pos ended, start.position]
    cases read
    exact ⟨_, rfl, start⟩
  · next goesOn =>
    rw [if_neg goesOn, start.position]
    obtain ⟨absent, otherAbsent⟩ | ⟨between, otherBetween, taken, otherTaken, betweenSimilar⟩ :=
      start.takeLineBreak? member
    · rw [absent] at read
      rw [otherAbsent]
      obtain ⟨⟨found, after⟩, lexemeRead, ended⟩ := except_bind_ok_iff.mp read
      cases ended
      obtain ⟨otherRest, otherRead, restSimilar⟩ := (parallel proper).lexeme start lexemeRead (by
        intro body bodyRead
        obtain ⟨characters, moves, -⟩ := passes_of_delimitedBody bodyRead
        have spared := unbroken (isBody_of_delimitedBody bodyRead)
        rw [Finding.characters_eq moves.split] at spared
        exact start.delimitedBody proper bodyRead moves spared)
      exact ⟨otherRest, except_bind_ok_iff.mpr ⟨_, otherRead, rfl⟩, restSimilar⟩
    · rw [taken] at read
      rw [otherTaken]
      cases read
      exact ⟨otherBetween, rfl, betweenSimilar⟩

/-- Both sources have the same tokens. -/
theorem tokenRun {limits : Limits} {budget otherBudget : Nat}
    (member : form ∈ LineBreak.otherForms) (similar : Similar form left right)
    (enough : left.ahead < budget) (otherEnough : right.ahead < otherBudget)
    (complete : (left.tokenRun limits budget).failure = none)
    (unbroken : ∀ finding ∈ left.findings limits budget, finding.isBody = true →
      '\n' ∉ finding.characters) :
    right.tokenRun limits otherBudget = left.tokenRun limits budget := by
  induction budget generalizing left right otherBudget with
  | zero => omega
  | succ budget ih =>
      obtain ⟨otherBudget, rfl⟩ := Nat.exists_eq_succ_of_ne_zero (by omega : otherBudget ≠ 0)
      unfold Cursor.tokenRun at complete ⊢
      unfold Cursor.findings at unbroken
      cases read : left.nextToken limits with
      | error error => simp [read] at complete
      | ok result =>
          obtain ⟨token, rest⟩ := result
          simp only [read] at complete unbroken ⊢
          have here : token.lexeme.isBody = true →
              '\n' ∉ Finding.characters ⟨left.restartBuffer.skipBlanks, token, rest⟩ := by
            apply unbroken ⟨left.restartBuffer.skipBlanks, token, rest⟩
            split <;> exact List.mem_cons_self
          obtain ⟨otherRest, otherRead, restSimilar⟩ := similar.nextToken member read here
          rw [otherRead]
          dsimp only
          by_cases ends : token.lexeme = .endOfSource
          · rw [if_pos ends, if_pos ends]
          · rw [if_neg ends] at complete unbroken
            have moved := (ahead_lt_of_nextToken read).resolve_left ends
            have otherMoved := (ahead_lt_of_nextToken otherRead).resolve_left ends
            have bounded : otherRest.ahead < otherBudget := by omega
            have later := ih restSimilar (by omega) bounded complete
              fun finding inside => unbroken finding (List.mem_cons_of_mem _ inside)
            rw [if_neg ends, if_neg ends, later]

end Similar

end Cursor

/-- A source with another form of line break in place of each line feed. -/
def withLineBreaks (form : LineBreak) (source : String) : String :=
  String.ofList (form.rewrite source.toList)

theorem Cursor.Similar.ofSource {form : LineBreak} {source : String} (proper : form.Proper)
    (noReturn : '\r' ∉ source.toList) (noSeparator : recordSeparator ∉ source.toList) :
    Cursor.Similar form (.ofSource source) (.ofSource (withLineBreaks form source)) := by
  unfold Cursor.ofSource
  refine Similar.advanceWhile proper ⟨?_, rfl, .inl ⟨rfl, rfl⟩, noReturn, noSeparator⟩
    fun _ => breaksLine_eq_false_of_isBrace
  simp [withLineBreaks]

/-- A source whose lines end with line feeds, none of them within a text or a comment, has the
same tokens at the same positions when its lines end in any other form. -/
theorem line_breaks_of_any_form_give_the_same_tokens {limits : Limits} {source : String}
    {tokens : List Token} (noReturn : '\r' ∉ source.toList)
    (noSeparator : recordSeparator ∉ source.toList)
    (read : tokenize limits source = .ok tokens)
    (unbroken : ∀ finding ∈ findings limits source, finding.isBody = true →
      '\n' ∉ finding.characters) :
    ∀ form ∈ LineBreak.otherForms, tokenize limits (withLineBreaks form source) = .ok tokens := by
  intro form member
  have proper := LineBreak.proper_of_mem_otherForms member
  have similar := Cursor.Similar.ofSource proper noReturn noSeparator
  rw [tokenize_eq_ok_iff] at read ⊢
  have complete : (TokenRun.ofSource limits source).failure = none := by rw [read]
  rw [← read]
  exact similar.tokenRun member (Nat.lt_succ_self _) (Nat.lt_succ_self _) complete unbroken

/-- Two statements on lines of their own, with an empty line and braces between them, a text
with an escaped line feed and a comment. -/
theorem two_lines_end_in_any_form :
    '\r' ∉ "A;\n\n\x7b\x7d#b#\n\"\\n\"".toList ∧
    recordSeparator ∉ "A;\n\n\x7b\x7d#b#\n\"\\n\"".toList ∧
    tokenize .standard "A;\n\n\x7b\x7d#b#\n\"\\n\"" = .ok [
      ⟨.identifier "A", ⟨1, 1⟩⟩, ⟨.mark .semicolon, ⟨1, 2⟩⟩, ⟨.lineBreak, ⟨1, 3⟩⟩,
      ⟨.lineBreak, ⟨2, 1⟩⟩, ⟨.comment "b", ⟨3, 1⟩⟩, ⟨.lineBreak, ⟨3, 4⟩⟩,
      ⟨.text "\n", ⟨4, 1⟩⟩, ⟨.endOfSource, ⟨4, 5⟩⟩] ∧
    ∀ form ∈ LineBreak.otherForms,
      tokenize .standard (withLineBreaks form "A;\n\n\x7b\x7d#b#\n\"\\n\"") = .ok [
        ⟨.identifier "A", ⟨1, 1⟩⟩, ⟨.mark .semicolon, ⟨1, 2⟩⟩, ⟨.lineBreak, ⟨1, 3⟩⟩,
        ⟨.lineBreak, ⟨2, 1⟩⟩, ⟨.comment "b", ⟨3, 1⟩⟩, ⟨.lineBreak, ⟨3, 4⟩⟩,
        ⟨.text "\n", ⟨4, 1⟩⟩, ⟨.endOfSource, ⟨4, 5⟩⟩] := by
  have noReturn : '\r' ∉ "A;\n\n\x7b\x7d#b#\n\"\\n\"".toList := by decide
  have noSeparator : recordSeparator ∉ "A;\n\n\x7b\x7d#b#\n\"\\n\"".toList := by decide
  have read : tokenize .standard "A;\n\n\x7b\x7d#b#\n\"\\n\"" = .ok [
      ⟨.identifier "A", ⟨1, 1⟩⟩, ⟨.mark .semicolon, ⟨1, 2⟩⟩, ⟨.lineBreak, ⟨1, 3⟩⟩,
      ⟨.lineBreak, ⟨2, 1⟩⟩, ⟨.comment "b", ⟨3, 1⟩⟩, ⟨.lineBreak, ⟨3, 4⟩⟩,
      ⟨.text "\n", ⟨4, 1⟩⟩, ⟨.endOfSource, ⟨4, 5⟩⟩] := by
    decide +kernel
  exact ⟨noReturn, noSeparator, read, line_breaks_of_any_form_give_the_same_tokens noReturn
    noSeparator read (by decide +kernel)⟩

end Plainspoken
