import Plainspoken.Proofs.Source.Rendering

/-!
# What texts and comments hold

A text or a comment is a row of items up to the first delimiter that is not escaped: plain
characters, which stand for themselves, and backslashes with the character they escape.  The
row is decoded here without a limit, from the characters alone.  The limit then decides: a row
within it gives its content or fails as the decoding does; a longer row is too big, whatever
stands behind the first item too many.
-/

namespace Plainspoken

/-- The characters that a backslash may stand before, and what they then stand for. -/
def escapes : List (Char × Char) :=
  [('a', Char.ofNat 7), ('b', Char.ofNat 8), ('t', Char.ofNat 9), ('n', Char.ofNat 10),
    ('v', Char.ofNat 11), ('f', Char.ofNat 12), ('r', Char.ofNat 13),
    ('\\', '\\'), ('\'', '\''), ('"', '"'), ('#', '#')]

private theorem unescape?_eq_lookup (escaped : Char) :
    Cursor.unescape? escaped = escapes.lookup escaped := by
  unfold Cursor.unescape?
  split
  case h_12 =>
    refine (List.lookup_eq_none_iff.mpr ?_).symm
    simp only [escapes, List.forall_mem_cons, bne_iff_ne]
    simp_all
  all_goals rfl

namespace BodyKind

/-- The items of a body, decoded, and what stands behind its delimiter, or what keeps it from
being closed. -/
def decode (body : BodyKind) : List Char → List Char × Except LexicalCause (List Char)
  | [] => ([], .error (.bodySuddenEnd body))
  | first :: others =>
      if first = body.delimiter then ([], .ok others)
      else if first = '\\' then
        match others with
        | [] => ([], .error (.bodySuddenEnd body))
        | escaped :: others =>
            match escapes.lookup escaped with
            | none => ([], .error (.unknownEscape escaped))
            | some character => (character :: (decode body others).1, (decode body others).2)
      else (first :: (decode body others).1, (decode body others).2)

/-- What becomes of a body of at most a given number of items: its content and what stands
behind it, or the cause of its failure. -/
def outcome (body : BodyKind) (limit : Nat) (following : List Char) :
    Except LexicalCause (String × List Char) :=
  if limit < (body.decode following).1.length then .error (.bodyTooBig body limit)
  else (body.decode following).2.map fun behind =>
    (String.ofList (body.decode following).1, behind)

end BodyKind

namespace Cursor

variable {limits : Limits} {body : BodyKind} {cursor : Cursor}

/-! ## One item -/

/-- What the cursor meets within a body, and how the characters from there on are decoded: the
delimiter, an item, or an item that fails. -/
inductive MeetsItem (body : BodyKind) (cursor : Cursor) : Prop where
  | delimiter {behind} : cursor.remaining = body.delimiter :: behind →
      body.decode cursor.remaining = ([], .ok behind) → MeetsItem body cursor
  | item (character : Char) {taken rest} : cursor.isOn body.delimiter = false →
      cursor.bodyItem body = .ok (character, rest) → cursor.Passes taken rest →
      body.decode cursor.remaining =
        (character :: (body.decode rest.remaining).1, (body.decode rest.remaining).2) →
      MeetsItem body cursor
  | failing (cause : LexicalCause) {taken rest} : cursor.isOn body.delimiter = false →
      cursor.bodyItem body = .error (rest.failure cause) → cursor.Passes taken rest →
      body.decode cursor.remaining = ([], .error cause) → MeetsItem body cursor

theorem meetsItem_escape {others : List Char} (remaining : cursor.remaining = '\\' :: others) :
    cursor.MeetsItem body := by
  have isCurrent : cursor.current = some '\\' := current_of_remaining remaining
  have notDelimiter : '\\' ≠ body.delimiter := by cases body <;> decide
  have notOn : cursor.isOn body.delimiter = false := by
    rw [isOn_of_remaining remaining]
    exact beq_eq_false_iff_ne.mpr notDelimiter
  have passes : cursor.Passes ['\\'] cursor.advance := .advance isCurrent
  have moved : cursor.advance.remaining = others := remaining_advance remaining
  cases others with
  | nil =>
      have ended : cursor.advance.current = none := current_of_ended moved
      refine .failing (.bodySuddenEnd body) notOn ?_ passes ?_
      · simp only [bodyItem, isCurrent, nextInBody, ended]
      · rw [remaining, BodyKind.decode, if_neg notDelimiter, if_pos rfl]
  | cons escaped others =>
      have isEscaped : cursor.advance.current = some escaped := current_of_remaining moved
      have behind : cursor.advance.advance.remaining = others := remaining_advance moved
      cases stands : escapes.lookup escaped with
      | none =>
          refine .failing (.unknownEscape escaped) notOn ?_ passes ?_
          · simp only [bodyItem, isCurrent, nextInBody, isEscaped, unescape?_eq_lookup, stands]
          · simp only [remaining, BodyKind.decode, notDelimiter, if_false, if_true, stands]
      | some character =>
          refine .item character notOn ?_ (passes.trans (.advance isEscaped)) ?_
          · simp only [bodyItem, isCurrent, nextInBody, isEscaped, unescape?_eq_lookup, stands]
          · simp only [remaining, BodyKind.decode, notDelimiter, if_false, if_true, stands, behind]

theorem meetsItem_plain {character : Char} {others : List Char}
    (remaining : cursor.remaining = character :: others) (notDelimiter : character ≠ body.delimiter)
    (notEscape : character ≠ '\\') : cursor.MeetsItem body := by
  have isCurrent : cursor.current = some character := current_of_remaining remaining
  have notOn : cursor.isOn body.delimiter = false := by
    rw [isOn_of_remaining remaining]
    exact beq_eq_false_iff_ne.mpr notDelimiter
  have moved : cursor.advance.remaining = others := remaining_advance remaining
  refine .item character notOn ?_ (.advance isCurrent) ?_
  · unfold bodyItem
    rw [isCurrent]
    split
    · next isNone => cases isNone
    · next isEscape => exact absurd (Option.some.inj isEscape) notEscape
    · next isSame =>
      cases isSame
      rfl
  · simp only [moved, remaining, BodyKind.decode.eq_def body (character :: others),
      notDelimiter, notEscape, if_false]

theorem meetsItem (body : BodyKind) (cursor : Cursor) : cursor.MeetsItem body := by
  cases remaining : cursor.remaining with
  | nil =>
      have ended : cursor.current = none := current_of_ended remaining
      refine .failing (.bodySuddenEnd body) ?_ ?_ (.refl cursor) ?_
      · rw [isOn, ended]
        rfl
      · rw [bodyItem, ended]
      · rw [remaining, BodyKind.decode]
  | cons first others =>
      by_cases closes : first = body.delimiter
      · subst closes
        exact .delimiter remaining
          (by simp only [remaining, BodyKind.decode.eq_def body (_ :: others), if_true])
      · by_cases escape : first = '\\'
        · subst escape
          exact meetsItem_escape remaining
        · exact meetsItem_plain remaining closes escape

/-! ## The items up to the limit -/

/-- What reading a bounded number of items gives, from the decoding of what stands there. -/
structure ReadsItems (body : BodyKind) (budget : Nat) (cursor : Cursor)
    (decoded : List Char × Except LexicalCause (List Char)) : Prop where
  tooMany : budget ≤ decoded.1.length → ∃ taken rest, cursor.Passes taken rest ∧
    cursor.bodyItems body budget = .ok (decoded.1.take budget, rest)
  closed : decoded.1.length < budget → ∀ behind, decoded.2 = .ok behind → ∃ taken rest,
    cursor.Passes taken rest ∧ rest.remaining = body.delimiter :: behind ∧
      cursor.bodyItems body budget = .ok (decoded.1, rest)
  failed : decoded.1.length < budget → ∀ cause, decoded.2 = .error cause → ∃ taken rest,
    cursor.Passes taken rest ∧ cursor.bodyItems body budget = .error (rest.failure cause)

theorem readsItems (body : BodyKind) (budget : Nat) (cursor : Cursor) :
    cursor.ReadsItems body budget (body.decode cursor.remaining) := by
  induction budget generalizing cursor with
  | zero =>
      refine ⟨fun _ => ⟨[], cursor, .refl cursor, rfl⟩, ?_, ?_⟩
      all_goals exact fun short => absurd short (Nat.not_lt_zero _)
  | succ budget ih =>
      cases meetsItem body cursor with
      | @delimiter behind remaining decoded =>
          have isOn : cursor.isOn body.delimiter = true := by
            rw [isOn_of_remaining remaining, beq_self_eq_true]
          rw [decoded]
          refine ⟨fun many => absurd many (Nat.not_succ_le_zero budget), ?_, ?_⟩
          · intro _ _ isBehind
            cases isBehind
            exact ⟨[], cursor, .refl cursor, remaining, by rw [bodyItems, if_pos isOn]⟩
          · intro _ _ isCause
            cases isCause
      | @item character taken between notOn itemRead passes decoded =>
          have step {items : List Char} {rest : Cursor}
              (read : between.bodyItems body budget = .ok (items, rest)) :
              cursor.bodyItems body (budget + 1) = .ok (character :: items, rest) := by
            rw [bodyItems, notOn, if_neg Bool.false_ne_true, itemRead]
            exact except_bind_ok_iff.mpr ⟨_, rfl, except_bind_ok_iff.mpr ⟨_, read, rfl⟩⟩
          obtain ⟨tooMany, closed, failed⟩ := ih between
          rw [decoded]
          refine ⟨fun many => ?_, fun short behind isBehind => ?_, fun short cause isCause => ?_⟩
          · obtain ⟨others, rest, passesOthers, read⟩ := tooMany (Nat.le_of_succ_le_succ many)
            exact ⟨_, rest, passes.trans passesOthers, step read⟩
          · obtain ⟨others, rest, passesOthers, remaining, read⟩ :=
              closed (Nat.lt_of_succ_lt_succ short) behind isBehind
            exact ⟨_, rest, passes.trans passesOthers, remaining, step read⟩
          · obtain ⟨others, rest, passesOthers, read⟩ :=
              failed (Nat.lt_of_succ_lt_succ short) cause isCause
            refine ⟨_, rest, passes.trans passesOthers, ?_⟩
            rw [bodyItems, notOn, if_neg Bool.false_ne_true, itemRead]
            simp only [bind, Except.bind, read]
      | @failing cause taken rest notOn itemRead passes decoded =>
          rw [decoded]
          refine ⟨fun many => absurd many (Nat.not_succ_le_zero budget), ?_, ?_⟩
          · intro _ _ isBehind
            cases isBehind
          · intro _ _ isCause
            cases isCause
            refine ⟨taken, rest, passes, ?_⟩
            rw [bodyItems, notOn, if_neg Bool.false_ne_true, itemRead]
            rfl

/-! ## The whole body -/

/-- A text or a comment is read, or fails, as its characters and the limit determine. -/
structure ReadsBody (body : BodyKind) (start : Cursor)
    (outcome : Except LexicalCause (String × List Char))
    (result : Except LexicalError (Lexeme × Cursor)) : Prop where
  closed : ∀ content behind, outcome = .ok (content, behind) → ∃ taken rest,
    start.Passes taken rest ∧ rest.remaining = behind.dropWhile isBrace ∧
      result = .ok (body.lexeme content, rest)
  failed : ∀ cause, outcome = .error cause → ∃ taken rest,
    start.Passes taken rest ∧ result = .error (rest.failure cause)

private theorem delimitedBody_of_opens (opens : cursor.isOn body.delimiter = true) :
    ∃ result, cursor.delimitedBody limits body = some <$> result ∧
      cursor.ReadsBody body (body.outcome (body.limit limits) cursor.remaining.tail) result := by
  have opening : cursor.Passes [body.delimiter] cursor.advance := .advance (eq_of_beq opens)
  have inside : cursor.advance.remaining = cursor.remaining.tail := rfl
  obtain ⟨tooMany, closed, failed⟩ := readsItems body (body.limit limits + 1) cursor.advance
  rw [inside] at tooMany closed failed
  unfold delimitedBody BodyKind.outcome
  rw [if_pos opens]
  by_cases big : body.limit limits < (body.decode cursor.remaining.tail).1.length
  · obtain ⟨taken, rest, passes, read⟩ := tooMany big
    rw [if_pos big]
    refine ⟨.error (rest.failure (.bodyTooBig body (body.limit limits))), ?_, ?_, ?_⟩
    · simp only [nextInBody, read, bind, Except.bind, List.length_take_of_le big]
      rw [if_pos (Nat.lt_succ_self _)]
      rfl
    · intro _ _ isOk
      cases isOk
    · intro cause isCause
      cases isCause
      exact ⟨_, rest, opening.trans passes, rfl⟩
  · rw [if_neg big]
    have short := Nat.lt_succ_of_le (Nat.not_lt.mp big)
    cases decoded : (body.decode cursor.remaining.tail).2 with
    | ok behind =>
        obtain ⟨taken, rest, passes, remaining, read⟩ := closed short behind decoded
        have closing : rest.Passes _ rest.next :=
          (Passes.advance (current_of_remaining remaining)).trans (.advanceWhile _ isBrace)
        refine ⟨.ok (body.lexeme (String.ofList (body.decode cursor.remaining.tail).1), rest.next),
          ?_, ?_, ?_⟩
        · simp only [nextInBody, read, bind, Except.bind]
          rw [if_neg big]
          rfl
        · intro content others isOk
          cases isOk
          refine ⟨_, rest.next, (opening.trans passes).trans closing, ?_, rfl⟩
          rw [next, remaining_advanceWhile, remaining_advance remaining]
        · intro _ isError
          cases isError
    | error cause =>
        obtain ⟨taken, rest, passes, read⟩ := failed short cause decoded
        refine ⟨.error (rest.failure cause), ?_, ?_, ?_⟩
        · simp only [nextInBody, read, bind, Except.bind]
          rfl
        · intro _ _ isOk
          cases isOk
        · intro other isCause
          cases isCause
          exact ⟨_, rest, opening.trans passes, rfl⟩

private theorem lexeme_of_delimitedBody {result : Except LexicalError (Lexeme × Cursor)}
    (opens : cursor.isOn body.delimiter = true)
    (read : cursor.delimitedBody limits body = some <$> result) :
    cursor.lexeme limits = result := by
  obtain ⟨noWord, noMark, noNumber⟩ := @nothing_at_delimiter limits cursor body (eq_of_beq opens)
  unfold lexeme
  cases body with
  | text =>
      rw [noWord, noMark, noNumber, read]
      cases result <;> rfl
  | comment =>
      have noText : cursor.delimitedBody limits .text = .ok none := by
        rw [delimitedBody_eq_none_iff, isOn, eq_of_beq opens]
        rfl
      rw [noWord, noMark, noNumber, noText, read]
      cases result <;> rfl

end Cursor

/-- Wherever a text or a comment opens, behind blanks or not, it is decoded from the characters
behind its delimiter: to its content within the limit, or to its failure.  A form of line break
that a source has shown is always proper. -/
theorem bodies_are_decoded_within_their_limits {limits : Limits} {body : BodyKind}
    {cursor : Cursor} (known : ∀ form, cursor.lineBreak = some form → form.Proper)
    (opens : cursor.restartBuffer.skipBlanks.isOn body.delimiter = true) :
    let start := cursor.restartBuffer.skipBlanks
    (∀ content behind,
      body.outcome (body.limit limits) start.remaining.tail = .ok (content, behind) →
      ∃ taken rest, start.Passes taken rest ∧
        rest.remaining = behind.dropWhile Cursor.isBrace ∧
        cursor.nextToken limits = .ok (⟨body.lexeme content, start.position⟩, rest)) ∧
    ∀ cause, body.outcome (body.limit limits) start.remaining.tail = .error cause →
      ∃ taken rest, start.Passes taken rest ∧
        cursor.nextToken limits = .error (rest.failure cause) := by
  intro start
  obtain ⟨result, bodyRead, closed, failed⟩ :=
    @Cursor.delimitedBody_of_opens limits body start opens
  have unbroken : breaksLine body.delimiter = false := by cases body <;> decide
  have read := @Cursor.nextToken_of_lexeme limits cursor _ known (eq_of_beq opens) unbroken
  rw [Cursor.lexeme_of_delimitedBody opens bodyRead] at read
  refine ⟨fun content behind isOk => ?_, fun cause isError => ?_⟩
  · obtain ⟨taken, rest, passes, remaining, rfl⟩ := closed content behind isOk
    exact ⟨taken, rest, passes, remaining, read⟩
  · obtain ⟨taken, rest, passes, rfl⟩ := failed cause isError
    exact ⟨taken, rest, passes, read⟩

/-- A comment of as many items as are allowed, an escaped delimiter, a brace and a line feed
among them, and a text whose first item too many is an unknown escape. -/
theorem bodies_at_their_limits_are_decoded :
    (∃ rest : Cursor, rest.remaining = ['b'] ∧
      (Cursor.ofSource " #\x7ba\\#\n#\x7db").nextToken { Limits.standard with maxComment := 4 } =
        .ok (⟨.comment "\x7ba#\n", ⟨1, 2⟩⟩, rest)) ∧
    ∃ rest : Cursor,
      (Cursor.ofSource "\"ab\\q\"").nextToken { Limits.standard with maxText := 2 } =
        .error (rest.failure (.unknownEscape 'q')) := by
  constructor
  · obtain ⟨closed, -⟩ := @bodies_are_decoded_within_their_limits
      { Limits.standard with maxComment := 4 } .comment (Cursor.ofSource " #\x7ba\\#\n#\x7db")
      (fun _ isForm => by rw [Cursor.lineBreak_ofSource] at isForm; cases isForm)
      (by decide +kernel)
    obtain ⟨-, rest, -, behind, read⟩ := closed "\x7ba#\n" ['\x7d', 'b'] (by decide +kernel)
    exact ⟨rest, behind, read⟩
  · obtain ⟨-, failed⟩ := @bodies_are_decoded_within_their_limits
      { Limits.standard with maxText := 2 } .text (Cursor.ofSource "\"ab\\q\"")
      (fun _ isForm => by rw [Cursor.lineBreak_ofSource] at isForm; cases isForm)
      (by decide +kernel)
    obtain ⟨-, rest, -, read⟩ := failed (.unknownEscape 'q') (by decide +kernel)
    exact ⟨rest, read⟩

end Plainspoken
