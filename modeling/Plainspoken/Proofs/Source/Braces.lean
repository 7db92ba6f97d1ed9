import Plainspoken.Proofs.Source.Parallel

/-!
# Braces

Outside of texts and comments a brace means nothing, wherever it stands: between tokens, in a
word, a mark or a number, and also between the two characters of a line break.  Two sources
that are the same without such braces have the same tokens, apart from line breaks.

A brace can tear a line break in two, and then the sources disagree about the form of their
line breaks.  They still agree about whether records are separated, because the first
character that breaks a line decides it.  And this is all that counts: white space that is no
line break in one source and a line break in the other is passed in both.
-/

namespace Plainspoken

open Cursor (isBrace isDigitSeparator)

/-! ## Sources without braces -/

/-- Where a character of a source stands: outside of texts and comments, inside of one that a
delimiter closes, or there behind a backslash. -/
inductive Enclosure where
  | outside
  | inside (delimiter : Char)
  | escaped (delimiter : Char)
  deriving DecidableEq

/-- Where the character behind a character stands. -/
def Enclosure.after : Enclosure → Char → Enclosure
  | .outside, character =>
      if character = '"' ∨ character = '#' then .inside character else .outside
  | .inside delimiter, character =>
      if character = '\\' then .escaped delimiter
      else if character = delimiter then .outside
      else .inside delimiter
  | .escaped delimiter, _ => .inside delimiter

/-- The characters without the braces outside of texts and comments. -/
def bareFrom : Enclosure → List Char → List Char
  | _, [] => []
  | enclosure, character :: others =>
      if enclosure = .outside ∧ isBrace character = true then bareFrom enclosure others
      else character :: bareFrom (enclosure.after character) others

/-- A source without the braces outside of texts and comments. -/
def withoutBraces (source : String) : String :=
  String.ofList (bareFrom .outside source.toList)

example :
    withoutBraces "\x7ba\x7db # \\# \x7b # \x7d\"\x7b\"\x7d" = "ab # \\# \x7b # \"\x7b\"" := by
  decide

section Bare

variable {enclosure : Enclosure} {character : Char} {others : List Char}

@[simp]
theorem bareFrom_nil (enclosure : Enclosure) : bareFrom enclosure [] = [] :=
  rfl

theorem bareFrom_brace (brace : isBrace character = true) :
    bareFrom .outside (character :: others) = bareFrom .outside others := by
  rw [bareFrom, if_pos ⟨rfl, brace⟩]

/-- A character is kept unless it is a brace and stands outside. -/
theorem bareFrom_kept (kept : enclosure = .outside → isBrace character = false) :
    bareFrom enclosure (character :: others) =
      character :: bareFrom (enclosure.after character) others := by
  rw [bareFrom, if_neg]
  rintro ⟨isOutside, brace⟩
  rw [kept isOutside] at brace
  cases brace

theorem bareFrom_idempotent (enclosure : Enclosure) (characters : List Char) :
    bareFrom enclosure (bareFrom enclosure characters) =
      bareFrom enclosure characters := by
  induction characters generalizing enclosure with
  | nil => rfl
  | cons character others ih =>
      by_cases dropped : enclosure = .outside ∧ isBrace character = true
      · obtain ⟨rfl, brace⟩ := dropped
        rw [bareFrom_brace brace]
        exact ih .outside
      · have kept : enclosure = .outside → isBrace character = false := by
          simpa using dropped
        rw [bareFrom_kept kept, bareFrom_kept kept, ih]

theorem bareFrom_dropWhile_isBrace (characters : List Char) :
    bareFrom .outside (characters.dropWhile isBrace) = bareFrom .outside characters := by
  induction characters with
  | nil => rfl
  | cons character others ih =>
      by_cases brace : isBrace character = true
      · rw [List.dropWhile_cons_of_pos brace, bareFrom_brace brace, ih]
      · rw [List.dropWhile_cons_of_neg brace]

/-- Passing separators in a number passes underscores among the characters that count. -/
theorem bareFrom_dropWhile_isDigitSeparator (characters : List Char) :
    bareFrom .outside (characters.dropWhile isDigitSeparator) =
      (bareFrom .outside characters).dropWhile (· == '_') := by
  induction characters with
  | nil => rfl
  | cons character others ih =>
      by_cases brace : isBrace character = true
      · rw [List.dropWhile_cons_of_pos (by simp [isDigitSeparator, brace]), bareFrom_brace brace,
          ih]
      · have kept : Enclosure.outside = .outside → isBrace character = false := by
          simpa using brace
        by_cases isUnderscore : character = '_'
        · subst isUnderscore
          rw [List.dropWhile_cons_of_pos (by decide), bareFrom_kept kept,
            List.dropWhile_cons_of_pos (by decide), ih]
          rfl
        · rw [List.dropWhile_cons_of_neg (by simp [isDigitSeparator, brace, isUnderscore]),
            bareFrom_kept kept, List.dropWhile_cons_of_neg (by simpa using isUnderscore)]

end Bare

/-! ## Forms of line breaks -/

/-- The form separates records, or it ends lines. -/
def LineBreak.OfOneKind (form : LineBreak) : Prop :=
  form.characters = [recordSeparator] ∨
    ∀ character ∈ form.characters, character = '\r' ∨ character = '\n'

namespace Cursor

private theorem ofOneKind_of_lineBreakHere? {cursor : Cursor} {form : LineBreak}
    (here : cursor.lineBreakHere? = some form) : form.OfOneKind := by
  have pair {first second : Char} (firstEnds : first = '\r' ∨ first = '\n')
      (secondEnds : second = '\r' ∨ second = '\n') :
      LineBreak.OfOneKind ⟨first, cursor.following.filter (· == second)⟩ := by
    refine .inr fun character member => ?_
    rcases List.mem_cons.mp member with rfl | member
    · exact firstEnds
    · have isSecond : (character == second) = true :=
        (Option.mem_filter_iff.mp (Option.mem_toList.mp member)).2
      rw [eq_of_beq isSecond]
      exact secondEnds
  unfold lineBreakHere? at here
  split at here
  · cases here
    exact pair (.inl rfl) (.inr rfl)
  · cases here
    exact pair (.inr rfl) (.inl rfl)
  · split at here
    · cases here
      exact .inl rfl
    · cases here
  · cases here

/-- Whether the line breaks of the source separate records, once it has shown one. -/
def separatesRecords? (cursor : Cursor) : Option Bool :=
  cursor.lineBreak.map (·.first == recordSeparator)

/-- The form of line break that the source has shown is of one kind. -/
def ShowsOneKind (cursor : Cursor) : Prop :=
  ∀ form, cursor.lineBreak = some form → form.OfOneKind

/-! ## Twin cursors -/

/-- Two cursors with the same characters from here on, the braces apart that stand outside of
texts and comments.  Outside, neither of them stands on a brace. -/
structure Twins (enclosure : Enclosure) (left right : Cursor) : Prop where
  bare : bareFrom enclosure left.remaining = bareFrom enclosure right.remaining
  records : left.separatesRecords? = right.separatesRecords?
  leftShows : left.ShowsOneKind
  rightShows : right.ShowsOneKind
  leftOff : enclosure = .outside → left.isOnClass isBrace = false
  rightOff : enclosure = .outside → right.isOnClass isBrace = false

private theorem isBrace_eq_false_of_off {cursor : Cursor} {character : Char} {others : List Char}
    (off : cursor.isOnClass isBrace = false) (remaining : cursor.remaining = character :: others) :
    isBrace character = false := by
  simpa [isOnClass, current, remaining] using off

/-- Behind characters that are ignored, braces among them, stands no brace. -/
theorem off_of_dropWhile {cursor : Cursor} {property : Char → Bool} {characters : List Char}
    (remaining : cursor.remaining = characters.dropWhile property)
    (covers : ∀ character, isBrace character = true → property character = true) :
    cursor.isOnClass isBrace = false := by
  rw [isOnClass, current, remaining]
  cases dropped : characters.dropWhile property with
  | nil => rfl
  | cons character others =>
      have stopped := List.head?_dropWhile_not property characters
      rw [dropped] at stopped
      by_contra brace
      have stands : isBrace character = true := by simpa using brace
      simp [covers character stands] at stopped

namespace Twins

variable {enclosure : Enclosure} {left right : Cursor} {character : Char}

theorem symm (twins : Twins enclosure left right) : Twins enclosure right left :=
  ⟨twins.bare.symm, twins.records.symm, twins.rightShows, twins.leftShows, twins.rightOff,
    twins.leftOff⟩

private theorem current_eq_head? {cursor : Cursor}
    (off : enclosure = .outside → cursor.isOnClass isBrace = false) :
    cursor.current = (bareFrom enclosure cursor.remaining).head? := by
  unfold current
  cases remaining : cursor.remaining with
  | nil => rfl
  | cons character others =>
      rw [bareFrom_kept fun isOutside => isBrace_eq_false_of_off (off isOutside) remaining]
      rfl

theorem current_eq (twins : Twins enclosure left right) : left.current = right.current := by
  rw [current_eq_head? twins.leftOff, current_eq_head? twins.rightOff, twins.bare]

/-- What is left behind the character under the cursor. -/
theorem bareFrom_tail {cursor : Cursor} (isCurrent : cursor.current = some character)
    (off : enclosure = .outside → cursor.isOnClass isBrace = false) :
    bareFrom enclosure cursor.remaining =
      character :: bareFrom (enclosure.after character) cursor.remaining.tail := by
  obtain ⟨others, remaining⟩ := List.head?_eq_some_iff.mp isCurrent
  rw [remaining, bareFrom_kept fun isOutside => isBrace_eq_false_of_off (off isOutside) remaining]
  rfl

private theorem tail_eq (twins : Twins enclosure left right)
    (isCurrent : left.current = some character) :
    bareFrom (enclosure.after character) left.remaining.tail =
      bareFrom (enclosure.after character) right.remaining.tail := by
  have same := twins.bare
  rw [bareFrom_tail isCurrent twins.leftOff,
    bareFrom_tail (twins.current_eq ▸ isCurrent) twins.rightOff] at same
  exact (List.cons.inj same).2

theorem advance (twins : Twins enclosure left right) (isCurrent : left.current = some character)
    (stays : enclosure.after character ≠ .outside) :
    Twins (enclosure.after character) left.advance right.advance where
  bare := twins.tail_eq isCurrent
  records := twins.records
  leftShows := twins.leftShows
  rightShows := twins.rightShows
  leftOff isOutside := absurd isOutside stays
  rightOff isOutside := absurd isOutside stays

/-- Moving on outside of texts and comments, over a character and what is ignored behind it. -/
theorem advanceWhile {property : Char → Bool} (twins : Twins enclosure left right)
    (isCurrent : left.current = some character)
    (leaves : enclosure.after character = .outside)
    (covers : ∀ character, isBrace character = true → property character = true)
    (drops : ∀ characters other, bareFrom .outside characters = bareFrom .outside other →
      bareFrom .outside (characters.dropWhile property) =
        bareFrom .outside (other.dropWhile property)) :
    Twins .outside (left.advance.advanceWhile property) (right.advance.advanceWhile property) := by
  have sameForm (cursor : Cursor) :
      (cursor.advance.advanceWhile property).lineBreak = cursor.lineBreak :=
    (Passes.advanceWhile cursor.advance property).lineBreak_eq
  have behind := twins.tail_eq isCurrent
  rw [leaves] at behind
  refine ⟨?_, ?_, ?_, ?_, fun _ => off_of_dropWhile (remaining_advanceWhile _ _) covers,
    fun _ => off_of_dropWhile (remaining_advanceWhile _ _) covers⟩
  · rw [remaining_advanceWhile, remaining_advanceWhile]
    exact drops _ _ behind
  · rw [separatesRecords?, separatesRecords?, sameForm, sameForm]
    exact twins.records
  · rw [ShowsOneKind, sameForm]
    exact twins.leftShows
  · rw [ShowsOneKind, sameForm]
    exact twins.rightShows

theorem next (twins : Twins enclosure left right) (isCurrent : left.current = some character)
    (leaves : enclosure.after character = .outside) : Twins .outside left.next right.next := by
  refine twins.advanceWhile isCurrent leaves (fun _ brace => brace) fun characters other same => ?_
  rw [bareFrom_dropWhile_isBrace, bareFrom_dropWhile_isBrace, same]

theorem nextInNumber (twins : Twins enclosure left right)
    (isCurrent : left.current = some character)
    (leaves : enclosure.after character = .outside) :
    Twins .outside left.nextInNumber right.nextInNumber := by
  refine twins.advanceWhile isCurrent leaves (fun _ brace => by simp [isDigitSeparator, brace])
    fun characters other same => ?_
  rw [bareFrom_dropWhile_isDigitSeparator, bareFrom_dropWhile_isDigitSeparator, same]

private theorem after_eq_outside_of_isPlain (plain : isPlain character = true) :
    Enclosure.outside.after character = .outside := by
  simp only [isPlain, Bool.and_eq_true, bne_iff_ne] at plain
  simp [Enclosure.after, plain.1.2, plain.2]

/-- Twin cursors outside of texts and comments read alike. -/
theorem parallel : Parallel (Twins .outside) where
  current twins := .inl twins.current_eq
  next twins isCurrent plain := twins.next isCurrent (after_eq_outside_of_isPlain plain)
  nextInNumber twins isCurrent plain :=
    twins.nextInNumber isCurrent (after_eq_outside_of_isPlain plain)

/-! ## Texts and comments -/

section Bodies

variable {body : BodyKind}

theorem bodyItem (twins : Twins (.inside body.delimiter) left right)
    (unclosed : left.isOn body.delimiter = false) :
    Agrees (SameThen (Twins (.inside body.delimiter))) (left.bodyItem body)
      (right.bodyItem body) := by
  have same := twins.current_eq
  unfold Cursor.bodyItem
  rw [← same]
  split
  · exact .error rfl
  · next isCurrent =>
    have escaped := twins.advance isCurrent nofun
    dsimp only [nextInBody]
    rw [← escaped.current_eq]
    split
    · exact .error rfl
    · next letter isLetter =>
      split
      · exact .error rfl
      · exact .ok ⟨rfl, escaped.advance isLetter nofun⟩
  · next plain notEscape isCurrent =>
    have other : plain ≠ body.delimiter := by
      rintro rfl
      simp [isOn, isCurrent] at unclosed
    have stays : (Enclosure.inside body.delimiter).after plain = .inside body.delimiter := by
      have notBackslash : plain ≠ '\\' := fun isBackslash => notEscape isBackslash
      simp [Enclosure.after, notBackslash, other]
    refine .ok ⟨rfl, ?_⟩
    have moved := twins.advance isCurrent (by simp [stays])
    rw [stays] at moved
    exact moved

private theorem isOn_eq (twins : Twins enclosure left right) (character : Char) :
    left.isOn character = right.isOn character := by
  rw [isOn, isOn, twins.current_eq]

/-- Items that do not use up the budget end at the delimiter. -/
theorem bodyItems (twins : Twins (.inside body.delimiter) left right) (budget : Nat) :
    Agrees (fun items items' => SameThen (Twins (.inside body.delimiter)) items items' ∧
        (items.1.length < budget → items.2.isOn body.delimiter = true))
      (left.bodyItems body budget) (right.bodyItems body budget) := by
  induction budget generalizing left right with
  | zero => exact .ok ⟨⟨rfl, twins⟩, nofun⟩
  | succ budget ih =>
      unfold Cursor.bodyItems
      rw [← twins.isOn_eq]
      split
      · next isOn => exact .ok ⟨⟨rfl, twins⟩, fun _ => isOn⟩
      · next unclosed =>
        refine (twins.bodyItem (by simpa using unclosed)).bind ?_
        rintro ⟨character, rest⟩ ⟨_, otherRest⟩ ⟨rfl, restTwins⟩
        refine (ih restTwins).bind ?_
        rintro ⟨characters, rest⟩ ⟨_, otherRest⟩ ⟨⟨rfl, restTwins⟩, closed⟩
        exact .ok ⟨⟨rfl, restTwins⟩, fun few => closed (by simpa using few)⟩

theorem delimitedBody {limits : Limits} (twins : Twins .outside left right) :
    Agrees (Option.Rel (SameThen (Twins .outside))) (left.delimitedBody limits body)
      (right.delimitedBody limits body) := by
  have opens : Enclosure.outside.after body.delimiter = .inside body.delimiter := by
    cases body <;> rfl
  have closes : (Enclosure.inside body.delimiter).after body.delimiter = .outside := by
    cases body <;> rfl
  unfold Cursor.delimitedBody
  rw [← twins.isOn_eq]
  split
  · next isOn =>
    have inside := twins.advance (eq_of_beq isOn) (by simp [opens])
    rw [opens] at inside
    refine (inside.bodyItems _).bind ?_
    rintro ⟨items, rest⟩ ⟨_, otherRest⟩ ⟨⟨rfl, restTwins⟩, closed⟩
    dsimp only at restTwins closed ⊢
    split
    · exact .error rfl
    · next bounded =>
      have isClosed := closed (by omega)
      exact .ok (.some ⟨rfl, restTwins.next (eq_of_beq isClosed) closes⟩)
  · exact .ok .none

end Bodies

/-! ## Lexemes -/

theorem lexeme {limits : Limits} (twins : Twins .outside left right) :
    Agrees (SameThen (Twins .outside)) (left.lexeme limits) (right.lexeme limits) := by
  refine (parallel.word twins).bind ?_
  rintro _ _ (sameWord | _)
  · exact .ok sameWord
  refine (parallel.mark twins).bind ?_
  rintro _ _ (⟨sameMark, restTwins⟩ | _)
  · exact .ok ⟨congrArg Lexeme.mark sameMark, restTwins⟩
  refine (parallel.numberLiteral twins).bind ?_
  rintro _ _ (⟨sameNumber, restTwins⟩ | _)
  · exact .ok ⟨congrArg Lexeme.number sameNumber, restTwins⟩
  refine (twins.delimitedBody).bind ?_
  rintro _ _ (sameText | _)
  · exact .ok sameText
  refine (twins.delimitedBody).bind ?_
  rintro _ _ (sameComment | _)
  · exact .ok sameComment
  exact .error rfl

end Twins

/-! ## Blanks and line breaks -/

/-- Passes over blanks and line breaks of any form, with whether these separate records, as
far as it is known.  Where they end lines, a separator of records is neither. -/
def upcomingFrom : Option Bool → List Char → Option Bool × List Char
  | records, [] => (records, [])
  | records, character :: others =>
      if character = recordSeparator then
        if records = some false then (records, character :: others)
        else upcomingFrom (some true) others
      else if character = '\r' ∨ character = '\n' then
        upcomingFrom (some (records.getD false)) others
      else if Character.isWhiteSpace character = true then upcomingFrom records others
      else (records, character :: others)

/-- What comes behind blanks and line breaks, the braces apart. -/
def upcoming (cursor : Cursor) : Option Bool × List Char :=
  upcomingFrom cursor.separatesRecords? (bareFrom .outside cursor.remaining)

/-- The cursor stands outside of texts and comments and not on a brace. -/
structure IsSettled (cursor : Cursor) : Prop where
  shows : cursor.ShowsOneKind
  off : cursor.isOnClass isBrace = false

variable {cursor rest : Cursor} {character : Char}

/-- White space that the cursor skips is a blank, or it would break lines of another form. -/
theorem upcomingFrom_blank {records : Option Bool} {others : List Char}
    (blank : Character.isWhiteSpace character = true)
    (known : character = '\r' ∨ character = '\n' → records.isSome = true) :
    upcomingFrom records (character :: others) = upcomingFrom records others := by
  have notSeparator : character ≠ recordSeparator := by
    rintro rfl
    cases blank
  rw [upcomingFrom, if_neg notSeparator]
  split
  · next ends =>
    obtain ⟨isKnown, rfl⟩ := Option.isSome_iff_exists.mp (known ends)
    rfl
  · rfl

theorem upcomingFrom_lines {records : Option Bool} {others : List Char}
    (ends : character = '\r' ∨ character = '\n') (lines : records.getD false = false) :
    upcomingFrom records (character :: others) = upcomingFrom (some false) others := by
  have notSeparator : character ≠ recordSeparator := by
    rintro rfl
    revert ends
    decide
  rw [upcomingFrom, if_neg notSeparator, if_pos ends, lines]

/-- A line break is passed, and from it on its kind is known. -/
theorem upcomingFrom_form {records : Option Bool} {form : LineBreak} (kind : form.OfOneKind)
    (agrees : ∀ known ∈ records, known = (form.first == recordSeparator)) (others : List Char) :
    upcomingFrom records (form.characters ++ others) =
      upcomingFrom (some (form.first == recordSeparator)) others := by
  obtain ⟨first, second⟩ := form
  rcases kind with isSeparator | ends
  · obtain ⟨rfl, absent⟩ := List.cons.inj isSeparator
    have notLines : records ≠ some false := by
      rintro rfl
      cases agrees false rfl
    rw [isSeparator, List.singleton_append, upcomingFrom, if_pos rfl, if_neg notLines]
    rfl
  · have firstEnds : first = '\r' ∨ first = '\n' := ends first List.mem_cons_self
    have lines : (first == recordSeparator) = false := by
      rcases firstEnds with rfl | rfl <;> decide
    have unrecorded : records.getD false = false := by
      cases records with
      | none => rfl
      | some known => exact (agrees known rfl).trans lines
    change upcomingFrom records (first :: (second.toList ++ others)) = _
    rw [lines, upcomingFrom_lines firstEnds unrecorded]
    cases second with
    | none => rfl
    | some second => exact upcomingFrom_lines (ends second (by simp [LineBreak.characters])) rfl

namespace IsSettled

theorem twins (settled : cursor.IsSettled) : Twins .outside cursor cursor :=
  ⟨rfl, rfl, settled.shows, settled.shows, fun _ => settled.off, fun _ => settled.off⟩

theorem of_twins {other : Cursor} (twins : Twins .outside cursor other) : cursor.IsSettled :=
  ⟨twins.leftShows, twins.leftOff rfl⟩

private theorem bare_eq (settled : cursor.IsSettled) (isCurrent : cursor.current = some character) :
    bareFrom .outside cursor.remaining =
      character :: bareFrom (Enclosure.outside.after character) cursor.remaining.tail :=
  Twins.bareFrom_tail isCurrent fun _ => settled.off

/-- A blank is passed. -/
theorem blank (settled : cursor.IsSettled)
    (isBlank : (cursor.isOnClass Character.isWhiteSpace && !cursor.isOnSpecial) = true) :
    cursor.next.IsSettled ∧ cursor.next.upcoming = cursor.upcoming := by
  obtain ⟨onBlank, notSpecial⟩ := Bool.and_eq_true_iff.mp isBlank
  obtain ⟨character, isCurrent, white⟩ := exists_current_of_isOnClass onBlank
  have outside : Enclosure.outside.after character = .outside := by
    have notQuote : character ≠ '"' := by
      rintro rfl
      cases white
    have notHash : character ≠ '#' := by
      rintro rfl
      cases white
    simp [Enclosure.after, notQuote, notHash]
  refine ⟨of_twins (settled.twins.next isCurrent outside), ?_⟩
  have sameForm : cursor.next.separatesRecords? = cursor.separatesRecords? := by
    rw [separatesRecords?, separatesRecords?, next,
      (Passes.advanceWhile cursor.advance isBrace).lineBreak_eq]
    rfl
  have known (ends : character = '\r' ∨ character = '\n') :
      cursor.separatesRecords?.isSome = true := by
    -- the first character that ends a line would be a line break
    cases shown : cursor.lineBreak with
    | some form => simp [separatesRecords?, shown]
    | none =>
        have here : cursor.isOnLineBreak = true := by
          rcases ends with rfl | rfl <;> simp [isOnLineBreak, shown, lineBreakHere?, isCurrent]
        simp [isOnSpecial, here] at notSpecial
  rw [upcoming, upcoming, sameForm, next, remaining_advanceWhile, bareFrom_dropWhile_isBrace,
    settled.bare_eq isCurrent, outside, upcomingFrom_blank white known]
  rfl

theorem skipBlanksUpTo (settled : cursor.IsSettled) (steps : Nat) :
    (cursor.skipBlanksUpTo steps).IsSettled ∧
      (cursor.skipBlanksUpTo steps).upcoming = cursor.upcoming := by
  induction steps generalizing cursor with
  | zero => exact ⟨settled, rfl⟩
  | succ steps ih =>
      unfold Cursor.skipBlanksUpTo
      split
      · next isBlank =>
        obtain ⟨nextSettled, same⟩ := settled.blank isBlank
        rw [← same]
        exact ih nextSettled
      · exact ⟨settled, rfl⟩

theorem skipBlanks (settled : cursor.IsSettled) :
    cursor.skipBlanks.IsSettled ∧ cursor.skipBlanks.upcoming = cursor.upcoming :=
  settled.skipBlanksUpTo _

end IsSettled

/-- With enough steps blanks are skipped up to their end. -/
theorem skipBlanksUpTo_stops {steps : Nat} (enough : cursor.ahead ≤ steps) :
    ((cursor.skipBlanksUpTo steps).isOnClass Character.isWhiteSpace &&
      !(cursor.skipBlanksUpTo steps).isOnSpecial) = false := by
  induction steps generalizing cursor with
  | zero =>
      have ended : cursor.remaining = [] := List.eq_nil_of_length_eq_zero (Nat.le_zero.mp enough)
      simp [Cursor.skipBlanksUpTo, isOnClass, current, ended]
  | succ steps ih =>
      unfold Cursor.skipBlanksUpTo
      split
      · have moved := ahead_next_le cursor
        exact ih (by omega)
      · next notBlank => simpa using notBlank

theorem skipBlanks_stops (cursor : Cursor) :
    (cursor.skipBlanks.isOnClass Character.isWhiteSpace && !cursor.skipBlanks.isOnSpecial) =
      false :=
  skipBlanksUpTo_stops (Nat.le_refl _)

theorem bareFrom_breaks {characters others : List Char}
    (breaks : ∀ character ∈ characters, character = recordSeparator ∨
      character = '\r' ∨ character = '\n') :
    bareFrom .outside (characters ++ others) = characters ++ bareFrom .outside others := by
  induction characters with
  | nil => rfl
  | cons character characters ih =>
      obtain ⟨breaksLine, othersBreak⟩ := List.forall_mem_cons.mp breaks
      have kept : isBrace character = false := by
        rcases breaksLine with rfl | rfl | rfl <;> decide
      have outside : Enclosure.outside.after character = .outside := by
        rcases breaksLine with rfl | rfl | rfl <;> rfl
      rw [List.cons_append, bareFrom_kept fun _ => kept, outside, ih othersBreak]
      rfl

theorem IsSettled.passLineBreak {form : LineBreak} (kind : form.OfOneKind)
    (agrees : ∀ known ∈ cursor.separatesRecords?, known = (form.first == recordSeparator))
    (isOn : cursor.isOnForm form = true) :
    (cursor.passLineBreak form).IsSettled ∧
      (cursor.passLineBreak form).upcoming = cursor.upcoming := by
  obtain ⟨others, remaining⟩ := exists_remaining_of_isOnForm isOn
  obtain ⟨behind, -, shown⟩ := passLineBreak_fields form remaining
  refine ⟨⟨?_, ?_⟩, ?_⟩
  · intro form' isShown
    rw [shown] at isShown
    cases isShown
    exact kind
  · exact off_of_dropWhile behind fun _ brace => brace
  · have breaks : ∀ character ∈ form.characters, character = recordSeparator ∨
        character = '\r' ∨ character = '\n' := by
      rcases kind with isSeparator | ends
      · rw [isSeparator]
        exact List.forall_mem_singleton.mpr (.inl rfl)
      · exact fun character member => .inr (ends character member)
    rw [upcoming, upcoming, behind, remaining, bareFrom_dropWhile_isBrace,
      bareFrom_breaks breaks, upcomingFrom_form kind agrees, separatesRecords?, shown]
    rfl

theorem IsSettled.takeLineBreak? (settled : cursor.IsSettled)
    (taken : cursor.takeLineBreak? = some rest) :
    rest.IsSettled ∧ rest.upcoming = cursor.upcoming := by
  unfold Cursor.takeLineBreak? at taken
  split at taken
  · next form shown =>
    split at taken
    · next isOn =>
      cases taken
      refine passLineBreak (settled.shows form shown) ?_ isOn
      rw [separatesRecords?, shown]
      rintro _ ⟨⟩
      rfl
    · cases taken
  · next unknown =>
    obtain ⟨form, here, rfl⟩ := Option.map_eq_some_iff.mp taken
    refine passLineBreak (ofOneKind_of_lineBreakHere? here) ?_ (proper_of_lineBreakHere? here).2
    rw [separatesRecords?, unknown]
    exact nofun

/-- Where a separator of records is no line break, line breaks end lines. -/
theorem IsSettled.separatesRecords?_of_unbroken (settled : cursor.IsSettled)
    (isCurrent : cursor.current = some recordSeparator) (unbroken : cursor.isOnLineBreak = false) :
    cursor.separatesRecords? = some false := by
  unfold isOnLineBreak at unbroken
  split at unbroken
  · next form shown =>
    rcases settled.shows form shown with isSeparator | ends
    · obtain ⟨isFirst, absent⟩ := List.cons.inj isSeparator
      have alone : form.second = none := by simpa using absent
      simp [isOnForm, isOn, isCurrent, isFirst, alone] at unbroken
    · have lines : (form.first == recordSeparator) = false := by
        rcases ends form.first List.mem_cons_self with isFirst | isFirst <;> rw [isFirst] <;> decide
      simp [separatesRecords?, shown, lines]
  · simp [lineBreakHere?, isCurrent, recordSeparator] at unbroken

/-- Where a cursor stands neither on a blank nor on a line break, nothing is passed. -/
theorem IsSettled.upcoming_eq (settled : cursor.IsSettled)
    (notBlank : (cursor.isOnClass Character.isWhiteSpace && !cursor.isOnSpecial) = false)
    (unbroken : cursor.atEnd = false → cursor.takeLineBreak? = none) :
    cursor.upcoming = (cursor.separatesRecords?, bareFrom .outside cursor.remaining) := by
  cases remaining : cursor.remaining with
  | nil => simp [upcoming, remaining, upcomingFrom]
  | cons character others =>
      have isCurrent : cursor.current = some character := by
        rw [current, remaining]
        rfl
      have notEnd : cursor.atEnd = false := by simp [atEnd, remaining]
      have notBreak : cursor.isOnLineBreak = false := by
        simp [isOnLineBreak_eq_isSome, unbroken notEnd]
      have white : Character.isWhiteSpace character = false := by
        simpa [isOnSpecial, notEnd, notBreak, isOnClass, isCurrent] using notBlank
      have notEnding : ¬(character = '\r' ∨ character = '\n') := by
        rintro (rfl | rfl) <;> cases white
      rw [upcoming, ← remaining, settled.bare_eq isCurrent, upcomingFrom]
      by_cases separates : character = recordSeparator
      · subst separates
        rw [if_pos rfl, if_pos (settled.separatesRecords?_of_unbroken isCurrent notBreak)]
      · rw [if_neg separates, if_neg notEnding, if_neg (by simp [white])]

/-! ## Tokens -/

/-- The token that begins under the cursor, which is on no blank. -/
def tokenHere (limits : Limits) (cursor : Cursor) : Except LexicalError (Token × Cursor) :=
  if cursor.atEnd then .ok (⟨.endOfSource, cursor.position⟩, cursor)
  else do
    let (lexeme, rest) ← cursor.lexeme limits
    return (⟨lexeme, cursor.position⟩, rest)

/-- The next token is a line break, or it begins behind all blanks and line breaks. -/
theorem IsSettled.nextToken_cases (settled : cursor.IsSettled) (limits : Limits) :
    (∃ token rest, cursor.nextToken limits = .ok (token, rest) ∧ token.lexeme = .lineBreak ∧
        rest.IsSettled ∧ rest.upcoming = cursor.upcoming) ∨
      ∃ start : Cursor, start.IsSettled ∧
        cursor.upcoming = (start.separatesRecords?, bareFrom .outside start.remaining) ∧
        cursor.nextToken limits = start.tokenHere limits := by
  have restarted : cursor.restartBuffer.IsSettled := ⟨settled.shows, settled.off⟩
  obtain ⟨startSettled, same⟩ := restarted.skipBlanks
  have notBlank := skipBlanks_stops cursor.restartBuffer
  change _ = cursor.upcoming at same
  unfold nextToken
  generalize cursor.restartBuffer.skipBlanks = start at startSettled same notBlank ⊢
  dsimp only
  by_cases ended : start.atEnd = true
  · refine .inr ⟨start, startSettled, ?_, ?_⟩
    · rw [← same]
      exact startSettled.upcoming_eq notBlank fun notEnd => absurd ended (by simp [notEnd])
    · rw [tokenHere, if_pos ended, if_pos ended]
  · rw [if_neg ended]
    cases taken : start.takeLineBreak? with
    | some rest =>
        obtain ⟨restSettled, restSame⟩ := startSettled.takeLineBreak? taken
        exact .inl ⟨_, rest, rfl, rfl, restSettled, restSame.trans same⟩
    | none =>
        refine .inr ⟨start, startSettled, ?_, ?_⟩
        · rw [← same]
          exact startSettled.upcoming_eq notBlank fun _ => taken
        · rw [tokenHere, if_neg ended]

private theorem atEnd_eq_isNone (cursor : Cursor) : cursor.atEnd = cursor.current.isNone := by
  unfold atEnd current
  cases cursor.remaining <;> rfl

theorem Twins.tokenHere {left right : Cursor} (twins : Twins .outside left right)
    (limits : Limits) :
    Agrees (fun found found' => found.1.lexeme = found'.1.lexeme ∧
      Twins .outside found.2 found'.2) (left.tokenHere limits) (right.tokenHere limits) := by
  have sameEnd : left.atEnd = right.atEnd := by
    rw [atEnd_eq_isNone, atEnd_eq_isNone, twins.current_eq]
  unfold Cursor.tokenHere
  rw [← sameEnd]
  split
  · exact .ok ⟨rfl, twins⟩
  · refine twins.lexeme.bind ?_
    rintro ⟨lexeme, rest⟩ ⟨_, otherRest⟩ ⟨rfl, restTwins⟩
    exact .ok ⟨rfl, restTwins⟩

end Cursor

/-- What a run finds, positions and everything apart that the grammar does not see: the
lexemes, and why the run ends before the end of the source. -/
def TokenRun.essence (run : TokenRun) : List Lexeme × Option LexicalCause :=
  ((run.tokens.map Token.lexeme).filter Lexeme.isSignificant, run.failure.map LexicalError.cause)

namespace Cursor

/-- Behind a line break a run goes on with what it would find without it. -/
theorem essence_tokenRun_of_lineBreak {limits : Limits} {cursor rest : Cursor} {token : Token}
    {budget : Nat} (read : cursor.nextToken limits = .ok (token, rest))
    (isBreak : token.lexeme = .lineBreak) :
    (cursor.tokenRun limits (budget + 1)).essence = (rest.tokenRun limits budget).essence := by
  simp [Cursor.tokenRun, read, isBreak, TokenRun.essence, Lexeme.isSignificant]

/-- Runs from places with the same characters ahead, the braces, blanks and line breaks apart,
find the same. -/
theorem essence_tokenRun_eq {limits : Limits} (total : Nat) {left right : Cursor}
    {budget otherBudget : Nat} (bounded : left.ahead + right.ahead ≤ total)
    (settled : left.IsSettled) (otherSettled : right.IsSettled)
    (same : left.upcoming = right.upcoming) (enough : left.ahead < budget)
    (otherEnough : right.ahead < otherBudget) :
    (left.tokenRun limits budget).essence = (right.tokenRun limits otherBudget).essence := by
  induction total using Nat.strong_induction_on generalizing left right budget otherBudget with
  | _ total ih =>
  obtain ⟨budget, rfl⟩ := Nat.exists_eq_succ_of_ne_zero (by omega : budget ≠ 0)
  obtain ⟨otherBudget, rfl⟩ := Nat.exists_eq_succ_of_ne_zero (by omega : otherBudget ≠ 0)
  obtain ⟨token, rest, read, isBreak, restSettled, restSame⟩ |
      ⟨start, startSettled, stands, read⟩ :=
    settled.nextToken_cases limits
  · have moved := (ahead_lt_of_nextToken read).resolve_left (by simp [isBreak])
    rw [essence_tokenRun_of_lineBreak read isBreak]
    exact ih _ (by omega) (Nat.le_refl _) restSettled otherSettled (restSame.trans same) (by omega)
      otherEnough
  obtain ⟨token, rest, otherRead, isBreak, restSettled, restSame⟩ |
      ⟨other, otherStart, otherStands, otherRead⟩ := otherSettled.nextToken_cases limits
  · have moved := (ahead_lt_of_nextToken otherRead).resolve_left (by simp [isBreak])
    rw [essence_tokenRun_of_lineBreak otherRead isBreak]
    exact ih _ (by omega) (Nat.le_refl _) settled restSettled (same.trans restSame.symm) enough
      (by omega)
  -- neither source has a line break next, so the same token begins in both
  rw [stands, otherStands] at same
  obtain ⟨records, bare⟩ := Prod.mk.inj same
  have twins : Twins .outside start other :=
    ⟨bare, records, startSettled.shows, otherStart.shows, fun _ => startSettled.off,
      fun _ => otherStart.off⟩
  have found := twins.tokenHere limits
  rw [← read, ← otherRead] at found
  unfold Cursor.tokenRun
  cases leftRead : left.nextToken limits with
  | error error =>
      rw [leftRead] at found
      cases rightRead : right.nextToken limits with
      | error error' =>
          rw [rightRead] at found
          cases found with
          | error sameCause => simp [TokenRun.essence, sameCause]
      | ok result =>
          rw [rightRead] at found
          cases found
  | ok result =>
      rw [leftRead] at found
      obtain ⟨result', rightRead, sameLexeme, restTwins⟩ := found.exists_of_ok rfl
      obtain ⟨token, rest⟩ := result
      obtain ⟨token', rest'⟩ := result'
      rw [rightRead]
      dsimp only at sameLexeme restTwins ⊢
      rw [← sameLexeme]
      by_cases ends : token.lexeme = .endOfSource
      · simp [ends, ← sameLexeme, TokenRun.essence]
      · have moved := (ahead_lt_of_nextToken leftRead).resolve_left ends
        have otherMoved := (ahead_lt_of_nextToken rightRead).resolve_left (sameLexeme ▸ ends)
        have restSame : rest.upcoming = rest'.upcoming := by
          rw [upcoming, upcoming, restTwins.records, restTwins.bare]
        have bounded : rest'.ahead < otherBudget := by omega
        have later := ih _ (by omega) (Nat.le_refl _) (.of_twins restTwins)
          (.of_twins restTwins.symm) restSame (by omega : rest.ahead < budget) bounded
        rw [if_neg ends, if_neg ends]
        simp only [TokenRun.essence, List.map_cons, ← sameLexeme, Prod.mk.injEq] at later ⊢
        exact ⟨by simp only [List.filter_cons, later.1], later.2⟩

theorem isSettled_ofSource (source : String) : (ofSource source).IsSettled where
  shows := by
    intro form shown
    rw [lineBreak_ofSource] at shown
    cases shown
  off := off_of_dropWhile (remaining_advanceWhile _ _) fun _ brace => brace

theorem upcoming_ofSource (source : String) :
    (ofSource source).upcoming = upcomingFrom none (bareFrom .outside source.toList) := by
  rw [upcoming, separatesRecords?, lineBreak_ofSource, ofSource, remaining_advanceWhile,
    bareFrom_dropWhile_isBrace]
  rfl

end Cursor

/-- Sources that are the same without braces have the same tokens, line breaks and comments
apart, and break off for the same reason. -/
theorem essence_of_withoutBraces_eq (limits : Limits) {source other : String}
    (same : withoutBraces source = withoutBraces other) :
    (TokenRun.ofSource limits source).essence = (TokenRun.ofSource limits other).essence := by
  have bare : bareFrom .outside source.toList = bareFrom .outside other.toList := by
    simpa [withoutBraces] using congrArg String.toList same
  refine Cursor.essence_tokenRun_eq _ (Nat.le_refl _) (Cursor.isSettled_ofSource source)
    (Cursor.isSettled_ofSource other) ?_ (Nat.lt_succ_self _) (Nat.lt_succ_self _)
  rw [Cursor.upcoming_ofSource, Cursor.upcoming_ofSource, bare]

theorem withoutBraces_idempotent (source : String) :
    withoutBraces (withoutBraces source) = withoutBraces source := by
  simp [withoutBraces, bareFrom_idempotent]

end Plainspoken
