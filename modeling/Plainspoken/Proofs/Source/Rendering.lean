import Mathlib.Data.List.Chain
import Plainspoken.Proofs.Source.Findings

/-!
# Writing tokens

Tokens are written one after the other, with blanks and comments between them, in such a way
that they can be read back.  A text or a comment is written between its delimiters, with its
delimiter and the backslash escaped and everything else as it is.

Two tokens are not neighbours, so each ends where it should: a word before a blank or a
comment, a mark before one that would not make it longer, a text at its own delimiter.
-/

namespace Plainspoken

namespace BodyKind

def escaped (body : BodyKind) (character : Char) : List Char :=
  if character = body.delimiter ∨ character = '\\' then ['\\', character] else [character]

/-- A text or a comment as it is written. -/
def written (body : BodyKind) (content : List Char) : List Char :=
  body.delimiter :: (content.flatMap body.escaped ++ [body.delimiter])

end BodyKind

namespace Lexeme

def written : Lexeme → List Char
  | .mark symbol => symbol.spelling.toList
  | .keyword word => word.spelling.toList
  | .fact holds => (Value.factText holds).toList
  | .identifier name => name.toList
  | .text content => BodyKind.text.written content.toList
  | .comment content => BodyKind.comment.written content.toList
  | .number _ | .lineBreak | .endOfSource => []

/-- Whether a name begins like a word, goes on like one, and means nothing else. -/
def isName (name : String) : Bool :=
  name.toList.head?.any Cursor.isWordStart && name.toList.all Cursor.isWordPart &&
    (ReservedWord.ofSpelling? name == none || ReservedWord.ofSpelling? name == some .name)

/-- Whether a lexeme is a mark, a word or a text within the limits. -/
def isWritable (limits : Limits) : Lexeme → Bool
  | .mark _ => true
  | .keyword word => word.spelling.length ≤ limits.maxIdentifier
  | .fact holds => (Value.factText holds).length ≤ limits.maxIdentifier
  | .identifier name => isName name && name.length ≤ limits.maxIdentifier
  | .text content => content.length ≤ limits.maxText
  | .comment _ | .number _ | .lineBreak | .endOfSource => false

end Lexeme

/-- What stands in a written source: a blank, a comment or a token. -/
inductive Item where
  | blank
  | comment (content : String)
  | token (lexeme : Lexeme)
  deriving DecidableEq

namespace Item

def written : Item → List Char
  | .blank => [' ']
  | .comment content => (Lexeme.comment content).written
  | .token lexeme => lexeme.written

def fits (limits : Limits) : Item → Bool
  | .blank => true
  | .comment content => content.length ≤ limits.maxComment
  | .token lexeme => lexeme.isWritable limits

def token? : Item → Option Lexeme
  | .token lexeme => some lexeme
  | .blank | .comment _ => none

def lexeme? : Item → Option Lexeme
  | .token lexeme => some lexeme
  | .comment content => some (.comment content)
  | .blank => none

/-- Whether two items are not both tokens. -/
def Apart (left right : Item) : Prop :=
  left.token? = none ∨ right.token? = none

instance : DecidableRel Apart := fun left right =>
  inferInstanceAs (Decidable (left.token? = none ∨ right.token? = none))

end Item

/-! ## Characters at which reading starts and stops -/

namespace Character

/-- The code points of a set, run by run. -/
def members : List Nat → List Nat
  | first :: behind :: boundaries => List.range' first (behind - first) ++ members boundaries
  | _ => []

private theorem mem_members {boundaries : List Nat} {codePoint : Nat}
    (closed : boundaries.length % 2 = 0) (inside : inRuns boundaries codePoint = true) :
    codePoint ∈ members boundaries := by
  fun_induction members boundaries with
  | case1 first behind boundaries ih =>
      simp only [inRuns] at inside
      rw [List.mem_append, List.mem_range'_1]
      by_cases early : codePoint < first
      · simp [early] at inside
      · by_cases here : codePoint < behind
        · exact .inl (by omega)
        · refine .inr (ih (by simp only [List.length_cons] at closed; omega) ?_)
          simpa [early, here] using inside
  | case2 boundaries unpaired =>
      cases boundaries with
      | nil => cases inside
      | cons first boundaries =>
          cases boundaries with
          | nil => simp at closed
          | cons behind boundaries => exact absurd rfl (unpaired first behind boundaries)

end Character

namespace Cursor

private theorem isWhiteSpace_eq_false_of_isWordStart {character : Char}
    (isStart : isWordStart character = true) : Character.isWhiteSpace character = false := by
  by_contra blank
  have member := Character.mem_members (by decide) (Bool.not_eq_false _ ▸ blank)
  have never : ∀ codePoint ∈ Character.members Character.whiteSpaceBoundaries,
      isWordStart (Char.ofNat codePoint) = false := by
    decide +kernel
  rw [← Char.ofNat_toNat character, never _ member] at isStart
  cases isStart

private theorem isBrace_eq_false_of_isWordPart {character : Char}
    (isPart : isWordPart character = true) :
    isBrace character = false := by
  by_contra brace
  simp only [isBrace, Bool.not_eq_false, Bool.or_eq_true, beq_iff_eq] at brace
  rcases brace with rfl | rfl
  · have never : isWordPart (Char.ofNat 0x7B) = false := by decide
    rw [never] at isPart
    cases isPart
  · have never : isWordPart (Char.ofNat 0x7D) = false := by decide
    rw [never] at isPart
    cases isPart

/-- What follows does not begin with a brace. -/
def Unbraced (rest : List Char) : Prop :=
  ∀ character, rest.head? = some character → isBrace character = false

/-- What follows begins with a blank or a comment, if with anything. -/
def Stops (rest : List Char) : Prop :=
  ∀ character, rest.head? = some character → character = ' ' ∨ character = '#'

theorem Stops.unbraced {rest : List Char} (stops : Stops rest) : Unbraced rest := by
  intro character isHead
  rcases stops character isHead with rfl | rfl <;> decide

variable {limits : Limits} {cursor : Cursor} {rest : List Char} {character : Char}

private theorem dropWhile_of_unbraced (unbraced : Unbraced rest) :
    rest.dropWhile isBrace = rest := by
  cases rest with
  | nil => rfl
  | cons head others =>
      rw [List.dropWhile_cons, if_neg]
      rw [unbraced head rfl]
      exact Bool.false_ne_true

theorem remaining_next (remaining : cursor.remaining = character :: rest)
    (unbraced : Unbraced rest) : cursor.next.remaining = rest := by
  rw [next, remaining_advanceWhile, remaining_advance remaining, dropWhile_of_unbraced unbraced]

/-! ## Words -/

private theorem wordParts_of_word {word : List Char} {budget : Nat}
    (remaining : cursor.remaining = word ++ rest)
    (parts : ∀ part ∈ word, isWordPart part = true) (stops : Stops rest)
    (enough : word.length < budget) :
    ∃ after, cursor.wordParts budget = (word, after) ∧ after.remaining = rest := by
  induction word generalizing cursor budget with
  | nil =>
      obtain ⟨budget, rfl⟩ := Nat.exists_eq_succ_of_ne_zero (Nat.ne_of_gt enough)
      refine ⟨cursor, ?_, remaining⟩
      unfold wordParts
      cases isCurrent : cursor.current with
      | none => rfl
      | some character =>
          rw [current, remaining, List.nil_append] at isCurrent
          have ended : isWordPart character = false := by
            rcases stops character isCurrent with rfl | rfl <;> decide
          simp [ended]
  | cons part word ih =>
      obtain ⟨isPart, others⟩ := List.forall_mem_cons.mp parts
      obtain ⟨budget, rfl⟩ := Nat.exists_eq_succ_of_ne_zero (Nat.ne_zero_of_lt enough)
      have unbraced : Unbraced (word ++ rest) := by
        intro character isHead
        cases word with
        | nil => exact stops.unbraced character isHead
        | cons next word =>
            cases isHead
            exact isBrace_eq_false_of_isWordPart (others _ List.mem_cons_self)
      obtain ⟨after, read, afterRemaining⟩ := ih (remaining_next remaining unbraced) others
        (Nat.lt_of_succ_lt_succ enough)
      refine ⟨after, ?_, afterRemaining⟩
      unfold wordParts
      rw [current_of_remaining remaining]
      simp only [isPart, if_true, read]

private theorem word_of_word {first : Char} {word : List Char}
    (remaining : cursor.remaining = first :: word ++ rest) (isStart : isWordStart first = true)
    (parts : ∀ part ∈ word, isWordPart part = true) (stops : Stops rest)
    (fits : (first :: word).length ≤ limits.maxIdentifier) :
    ∃ after, cursor.word limits = .ok (some (wordLexeme (String.ofList (first :: word)), after)) ∧
      after.remaining = rest := by
  have isPart : isWordPart first = true := by simp [isWordPart, isStart]
  obtain ⟨after, read, afterRemaining⟩ := wordParts_of_word remaining
    (List.forall_mem_cons.mpr ⟨isPart, parts⟩) stops (Nat.lt_succ_of_le fits)
  have onStart : cursor.isOnClass isWordStart = true := by
    rw [isOnClass, current_of_remaining remaining]
    simpa using isStart
  refine ⟨after, ?_, afterRemaining⟩
  unfold Cursor.word
  rw [if_pos onStart, read]
  simp only [if_neg (Nat.not_lt.mpr fits)]

theorem wordLexeme_keyword (word : Keyword) :
    wordLexeme word.spelling = .keyword word := by
  cases word <;> decide

theorem wordLexeme_fact (holds : Bool) : wordLexeme (Value.factText holds) = .fact holds := by
  cases holds <;> decide

private theorem wordLexeme_of_isName {name : String} (isName : Lexeme.isName name = true) :
    wordLexeme name = .identifier name := by
  simp only [Lexeme.isName, Bool.and_eq_true, Bool.or_eq_true, beq_iff_eq] at isName
  unfold wordLexeme
  rcases isName.2 with free | bound
  · rw [free]
  · rw [bound]

/-! ## Marks -/

theorem longerMark_taken {last : Char} {longer shorter : Mark}
    (remaining : cursor.remaining = last :: rest) (stops : Stops rest) :
    ∃ after, cursor.longerMark last longer shorter = (longer, after) ∧ after.remaining = rest := by
  have isOn : cursor.isOn last = true := by
    rw [isOn, current_of_remaining remaining]
    exact beq_self_eq_true _
  exact ⟨cursor.next, by rw [longerMark, if_pos isOn], remaining_next remaining stops.unbraced⟩

private theorem longerMark_left {last : Char} {longer shorter : Mark}
    (remaining : cursor.remaining = rest) (stops : Stops rest) (other : last ≠ ' ' ∧ last ≠ '#') :
    cursor.longerMark last longer shorter = (shorter, cursor) := by
  rw [longerMark, if_neg]
  intro isOn
  have isHead := eq_of_beq isOn
  rw [current, remaining] at isHead
  exact (stops last isHead).elim other.1 other.2

theorem unbraced_cons (unbraced : isBrace character = false) : Unbraced (character :: rest) := by
  intro head isHead
  cases isHead
  exact unbraced

theorem equality_shorter {longer shorter : Mark} (remaining : cursor.remaining = '=' :: rest)
    (stops : Stops rest) :
    ∃ after, cursor.equality longer shorter = .ok (some (shorter, after)) ∧
      after.remaining = rest := by
  have isOn : cursor.isOn '=' = true := by
    rw [isOn, current_of_remaining remaining]
    rfl
  have moved := remaining_next remaining stops.unbraced
  exact ⟨cursor.next, by rw [equality, if_pos isOn, longerMark_left moved stops (by decide)],
    moved⟩

theorem equality_longer {longer shorter : Mark}
    (remaining : cursor.remaining = '=' :: '=' :: rest) (stops : Stops rest) :
    ∃ after, cursor.equality longer shorter = .ok (some (longer, after)) ∧
      after.remaining = rest := by
  have isOn : cursor.isOn '=' = true := by
    rw [isOn, current_of_remaining remaining]
    rfl
  have moved := remaining_next remaining (unbraced_cons (by decide))
  obtain ⟨after, read, afterRemaining⟩ := @longerMark_taken cursor.next rest '=' longer shorter
    moved stops
  exact ⟨after, by rw [equality, if_pos isOn, read], afterRemaining⟩

/-- A mark is read in full, and no further where a blank or a comment follows. -/
theorem mark_of_spelling (symbol : Mark)
    (remaining : cursor.remaining = symbol.spelling.toList ++ rest) (stops : Stops rest) :
    ∃ after, cursor.mark = .ok (some (symbol, after)) ∧ after.remaining = rest := by
  have single {first : Char} (isSingle : Mark.single? first = some symbol)
      (remaining : cursor.remaining = first :: rest) :
      ∃ after, cursor.mark = .ok (some (symbol, after)) ∧ after.remaining = rest := by
    refine ⟨cursor.next, ?_, remaining_next remaining stops.unbraced⟩
    simp only [Cursor.mark, current_of_remaining remaining, isSingle]
  have shorter {first last : Char} {longer : Mark}
      (reads : cursor.current = some first →
        cursor.mark = .ok (some (cursor.next.longerMark last longer symbol)))
      (remaining : cursor.remaining = first :: rest) (other : last ≠ ' ' ∧ last ≠ '#') :
      ∃ after, cursor.mark = .ok (some (symbol, after)) ∧ after.remaining = rest := by
    have moved := remaining_next remaining stops.unbraced
    refine ⟨cursor.next, ?_, moved⟩
    rw [reads (current_of_remaining remaining), longerMark_left moved stops other]
  have longer {first last : Char} {shorter : Mark}
      (reads : cursor.current = some first →
        cursor.mark = .ok (some (cursor.next.longerMark last symbol shorter)))
      (remaining : cursor.remaining = first :: last :: rest) (plain : isBrace last = false) :
      ∃ after, cursor.mark = .ok (some (symbol, after)) ∧ after.remaining = rest := by
    obtain ⟨after, read, afterRemaining⟩ := @longerMark_taken cursor.next rest last symbol shorter
      (remaining_next remaining (unbraced_cons plain)) stops
    exact ⟨after, by rw [reads (current_of_remaining remaining), read], afterRemaining⟩
  cases symbol with
  | semicolon => exact single rfl remaining
  | comma => exact single rfl remaining
  | colon => exact single rfl remaining
  | openParenthesis => exact single rfl remaining
  | closeParenthesis => exact single rfl remaining
  | minus => exact single rfl remaining
  | star => exact single rfl remaining
  | slash => exact single rfl remaining
  | percent => exact single rfl remaining
  | plus => exact shorter (fun isCurrent => by rw [Cursor.mark, isCurrent]; rfl) remaining (by decide)
  | question =>
      exact shorter (fun isCurrent => by rw [Cursor.mark, isCurrent]; rfl) remaining (by decide)
  | less => exact shorter (fun isCurrent => by rw [Cursor.mark, isCurrent]; rfl) remaining (by decide)
  | greater =>
      exact shorter (fun isCurrent => by rw [Cursor.mark, isCurrent]; rfl) remaining (by decide)
  | doublePlus =>
      exact longer (fun isCurrent => by rw [Cursor.mark, isCurrent]; rfl) remaining (by decide)
  | doubleQuestion =>
      exact longer (fun isCurrent => by rw [Cursor.mark, isCurrent]; rfl) remaining (by decide)
  | lessEqual =>
      exact longer (fun isCurrent => by rw [Cursor.mark, isCurrent]; rfl) remaining (by decide)
  | greaterEqual =>
      exact longer (fun isCurrent => by rw [Cursor.mark, isCurrent]; rfl) remaining (by decide)
  | equal =>
      rw [show cursor.mark = cursor.next.equality .equalText .equal by
        rw [Cursor.mark, current_of_remaining remaining]; rfl]
      exact equality_shorter (remaining_next remaining (unbraced_cons (by decide))) stops
  | notEqual =>
      rw [show cursor.mark = cursor.next.equality .notEqualText .notEqual by
        rw [Cursor.mark, current_of_remaining remaining]; rfl]
      exact equality_shorter (remaining_next remaining (unbraced_cons (by decide))) stops
  | equalText =>
      rw [show cursor.mark = cursor.next.equality .equalText .equal by
        rw [Cursor.mark, current_of_remaining remaining]; rfl]
      exact equality_longer (remaining_next remaining (unbraced_cons (by decide))) stops
  | notEqualText =>
      rw [show cursor.mark = cursor.next.equality .notEqualText .notEqual by
        rw [Cursor.mark, current_of_remaining remaining]; rfl]
      exact equality_longer (remaining_next remaining (unbraced_cons (by decide))) stops

/-! ## Texts and comments -/

theorem isOn_of_remaining (remaining : cursor.remaining = character :: rest) (other : Char) :
    cursor.isOn other = (character == other) := by
  rw [isOn, current_of_remaining remaining]
  rfl

private theorem bodyItem_of_escaped {body : BodyKind}
    (remaining : cursor.remaining = body.escaped character ++ rest) :
    cursor.isOn body.delimiter = false ∧
      ∃ after, cursor.bodyItem body = .ok (character, after) ∧ after.remaining = rest := by
  unfold BodyKind.escaped at remaining
  split at remaining
  · next escapes =>
    have second : cursor.advance.remaining = character :: rest := remaining_advance remaining
    have stands : unescape? character = some character := by
      rcases escapes with rfl | rfl
      · cases body <;> rfl
      · rfl
    refine ⟨?_, cursor.advance.advance, ?_, remaining_advance second⟩
    · rw [isOn_of_remaining remaining]
      cases body <;> rfl
    · simp only [Cursor.bodyItem, current_of_remaining remaining, nextInBody,
        current_of_remaining second, stands]
  · next plain =>
    rw [not_or] at plain
    refine ⟨?_, cursor.advance, ?_, remaining_advance remaining⟩
    · rw [isOn_of_remaining remaining]
      exact beq_eq_false_iff_ne.mpr plain.1
    · unfold Cursor.bodyItem
      rw [current_of_remaining remaining]
      split
      · next isNone => cases isNone
      · next isEscape =>
        cases isEscape
        exact absurd rfl plain.2
      · next isSame =>
        cases isSame
        rfl

private theorem bodyItems_of_escaped {body : BodyKind} {content : List Char} {budget : Nat}
    (remaining : cursor.remaining = content.flatMap body.escaped ++ body.delimiter :: rest)
    (enough : content.length < budget) :
    ∃ after, cursor.bodyItems body budget = .ok (content, after) ∧
      after.remaining = body.delimiter :: rest := by
  induction content generalizing cursor budget with
  | nil =>
      obtain ⟨budget, rfl⟩ := Nat.exists_eq_succ_of_ne_zero (Nat.ne_of_gt enough)
      have closed : cursor.isOn body.delimiter = true := by
        rw [isOn_of_remaining remaining]
        exact beq_self_eq_true _
      exact ⟨cursor, by rw [bodyItems, if_pos closed], remaining⟩
  | cons character content ih =>
      obtain ⟨budget, rfl⟩ := Nat.exists_eq_succ_of_ne_zero (Nat.ne_zero_of_lt enough)
      rw [List.flatMap_cons, List.append_assoc] at remaining
      obtain ⟨goesOn, between, itemRead, betweenRemaining⟩ := bodyItem_of_escaped remaining
      obtain ⟨after, itemsRead, afterRemaining⟩ :=
        ih betweenRemaining (Nat.lt_of_succ_lt_succ enough)
      refine ⟨after, ?_, afterRemaining⟩
      rw [bodyItems, goesOn, if_neg Bool.false_ne_true]
      refine except_bind_ok_iff.mpr ⟨_, itemRead, ?_⟩
      exact except_bind_ok_iff.mpr ⟨_, itemsRead, rfl⟩

private theorem delimitedBody_of_written {body : BodyKind} {content : List Char}
    (remaining : cursor.remaining = body.written content ++ rest) (unbraced : Unbraced rest)
    (fits : content.length ≤ body.limit limits) :
    ∃ after, cursor.delimitedBody limits body =
        .ok (some (body.lexeme (String.ofList content), after)) ∧ after.remaining = rest := by
  rw [BodyKind.written, List.cons_append, List.append_assoc] at remaining
  have opens : cursor.isOn body.delimiter = true := by
    rw [isOn_of_remaining remaining]
    exact beq_self_eq_true _
  have inside : cursor.nextInBody.remaining =
      content.flatMap body.escaped ++ body.delimiter :: rest := by
    rw [nextInBody, advance, remaining]
    rfl
  obtain ⟨last, itemsRead, lastRemaining⟩ := bodyItems_of_escaped inside (Nat.lt_succ_of_le fits)
  refine ⟨last.next, ?_, remaining_next lastRemaining unbraced⟩
  rw [delimitedBody, if_pos opens]
  refine except_bind_ok_iff.mpr ⟨_, itemsRead, ?_⟩
  dsimp only
  rw [if_neg (Nat.not_lt.mpr fits)]
  rfl

/-! ## Lexemes -/

theorem word_eq_none (isCurrent : cursor.current = some character)
    (other : isWordStart character = false) : cursor.word limits = .ok none := by
  have notOn : cursor.isOnClass isWordStart = false := by
    rw [isOnClass, isCurrent]
    exact other
  rw [Cursor.word, notOn, if_neg Bool.false_ne_true]

/-- At the delimiter of a text or a comment neither a word, a mark nor a number begins. -/
theorem nothing_at_delimiter {body : BodyKind}
    (isCurrent : cursor.current = some body.delimiter) :
    cursor.word limits = .ok none ∧ cursor.mark = .ok none ∧
      cursor.numberLiteral limits = .ok none := by
  refine ⟨word_eq_none isCurrent (by cases body <;> decide), ?_, ?_⟩
  · rw [Cursor.mark, isCurrent]
    cases body <;> rfl
  · rw [numberLiteral, isOn, isOnClass, isCurrent]
    cases body <;> rfl

private theorem lexeme_of_comment {content : String}
    (remaining : cursor.remaining = (Lexeme.comment content).written ++ rest)
    (unbraced : Unbraced rest) (fits : content.length ≤ limits.maxComment) :
    ∃ after, cursor.lexeme limits = .ok (.comment content, after) ∧ after.remaining = rest := by
  have isCurrent : cursor.current = some BodyKind.comment.delimiter :=
    current_of_remaining remaining
  obtain ⟨noWord, noMark, noNumber⟩ := nothing_at_delimiter isCurrent
  have noText : cursor.delimitedBody limits .text = .ok none := by
    rw [delimitedBody_eq_none_iff, isOn, isCurrent]
    rfl
  obtain ⟨after, read, afterRemaining⟩ :=
    @delimitedBody_of_written limits cursor rest .comment _ remaining unbraced
      (by rwa [String.length_toList])
  refine ⟨after, lexeme_eq_ok_iff.mpr ?_, afterRemaining⟩
  rw [String.ofList_toList] at read
  exact .comment noWord noMark noNumber noText read

private theorem lexeme_of_word {word : String} {found : Lexeme} (means : wordLexeme word = found)
    (remaining : cursor.remaining = word.toList ++ rest) (stops : Stops rest)
    (isStart : word.toList.head?.any isWordStart = true)
    (parts : word.toList.all isWordPart = true) (fits : word.length ≤ limits.maxIdentifier) :
    ∃ after, cursor.lexeme limits = .ok (found, after) ∧ after.remaining = rest := by
  cases characters : word.toList with
  | nil =>
      rw [characters] at isStart
      cases isStart
  | cons first others =>
      rw [← String.length_toList] at fits
      rw [characters] at isStart parts remaining fits
      rw [List.all_cons, Bool.and_eq_true, List.all_eq_true] at parts
      obtain ⟨after, read, afterRemaining⟩ :=
        @word_of_word limits cursor rest first others remaining isStart parts.2 stops fits
      rw [← characters, String.ofList_toList, means] at read
      exact ⟨after, lexeme_eq_ok_iff.mpr (.word read), afterRemaining⟩

/-- A token is read back where a blank or a comment follows, or nothing. -/
theorem lexeme_of_written {lexeme : Lexeme} (writable : lexeme.isWritable limits = true)
    (remaining : cursor.remaining = lexeme.written ++ rest) (stops : Stops rest) :
    ∃ after, cursor.lexeme limits = .ok (lexeme, after) ∧ after.remaining = rest := by
  cases lexeme with
  | mark symbol =>
      have noWord : cursor.word limits = .ok none := by
        have notOn : cursor.isOnClass isWordStart = false := by
          rw [isOnClass, current, remaining]
          cases symbol <;> rfl
        rw [Cursor.word, notOn, if_neg Bool.false_ne_true]
      obtain ⟨after, read, afterRemaining⟩ := mark_of_spelling symbol remaining stops
      exact ⟨after, lexeme_eq_ok_iff.mpr (.mark noWord read), afterRemaining⟩
  | keyword word =>
      refine lexeme_of_word (wordLexeme_keyword word) remaining stops ?_ ?_
        (of_decide_eq_true writable)
      · cases word <;> rfl
      · cases word <;> rfl
  | fact holds =>
      refine lexeme_of_word (wordLexeme_fact holds) remaining stops ?_ ?_
        (of_decide_eq_true writable)
      · cases holds <;> rfl
      · cases holds <;> rfl
  | identifier name =>
      obtain ⟨isName, fits⟩ := Bool.and_eq_true_iff.mp writable
      have means := wordLexeme_of_isName isName
      simp only [Lexeme.isName, Bool.and_eq_true] at isName
      exact lexeme_of_word means remaining stops isName.1.1 isName.1.2 (of_decide_eq_true fits)
  | text content =>
      obtain ⟨noWord, noMark, noNumber⟩ := @nothing_at_delimiter limits cursor .text
        (current_of_remaining remaining)
      have fits : content.length ≤ limits.maxText := of_decide_eq_true writable
      obtain ⟨after, read, afterRemaining⟩ :=
        @delimitedBody_of_written limits cursor rest .text _ remaining stops.unbraced
          (by rwa [String.length_toList])
      rw [String.ofList_toList] at read
      exact ⟨after, lexeme_eq_ok_iff.mpr (.text noWord noMark noNumber read), afterRemaining⟩
  | endOfSource => cases writable
  | lineBreak => cases writable
  | number => cases writable
  | comment => cases writable

/-! ## Items -/

/-- Whether a token may begin with a character: it is no blank, no brace and breaks no line. -/
def isSolid (character : Char) : Bool :=
  !Character.isWhiteSpace character && !isBrace character && !breaksLine character

private theorem isSolid_of_isWordStart (isStart : isWordStart character = true) :
    isSolid character = true := by
  have isPart : isWordPart character = true := by simp [isWordPart, isStart]
  simp [isSolid, isWhiteSpace_eq_false_of_isWordStart isStart,
    isBrace_eq_false_of_isWordPart isPart, breaksLine_eq_false_of_isWordPart isPart]

private theorem exists_solid_of_isWritable {lexeme : Lexeme}
    (writable : lexeme.isWritable limits = true) :
    ∃ first others, lexeme.written = first :: others ∧ isSolid first = true := by
  cases lexeme with
  | mark symbol => cases symbol <;> exact ⟨_, _, rfl, by decide⟩
  | keyword word => cases word <;> exact ⟨_, _, rfl, by decide⟩
  | fact holds => cases holds <;> exact ⟨_, _, rfl, by decide⟩
  | identifier name =>
      simp only [Lexeme.isWritable, Lexeme.isName, Bool.and_eq_true] at writable
      obtain ⟨first, isFirst, isStart⟩ := Option.any_eq_true _ _ |>.mp writable.1.1.1
      obtain ⟨others, characters⟩ := List.head?_eq_some_iff.mp isFirst
      exact ⟨first, others, characters, isSolid_of_isWordStart isStart⟩
  | text content => exact ⟨_, _, rfl, by decide⟩
  | endOfSource => cases writable
  | lineBreak => cases writable
  | number => cases writable
  | comment => cases writable

private theorem skipBlanks_of_blanks {count : Nat} (unknown : cursor.lineBreak = none)
    (remaining : cursor.remaining = List.replicate count ' ' ++ rest)
    (solid : ∀ character, rest.head? = some character → isSolid character = true) :
    cursor.skipBlanks.remaining = rest := by
  have general (steps : Nat) (enough : count ≤ steps) :
      (cursor.skipBlanksUpTo steps).remaining = rest := by
    induction count generalizing cursor steps with
    | zero =>
        rw [List.replicate_zero, List.nil_append] at remaining
        cases steps with
        | zero => exact remaining
        | succ steps =>
            have notBlank : cursor.isOnClass Character.isWhiteSpace = false := by
              rw [isOnClass, current, remaining]
              cases isHead : rest.head? with
              | none => rfl
              | some character =>
                  have isSolid := solid character isHead
                  simp only [Cursor.isSolid, Bool.and_eq_true, Bool.not_eq_true'] at isSolid
                  exact isSolid.1.1
            rw [skipBlanksUpTo, notBlank, Bool.false_and, if_neg Bool.false_ne_true]
            exact remaining
    | succ count ih =>
        obtain ⟨steps, rfl⟩ := Nat.exists_eq_succ_of_ne_zero (by omega : steps ≠ 0)
        rw [List.replicate_succ, List.cons_append] at remaining
        have isCurrent := current_of_remaining remaining
        have blank : (cursor.isOnClass Character.isWhiteSpace && !cursor.isOnSpecial) = true := by
          simp [isOnClass, isOnSpecial, isOnLineBreak, atEnd, unknown, lineBreakHere?, isCurrent,
            remaining, recordSeparator]
          decide
        have unbraced : Unbraced (List.replicate count ' ' ++ rest) := by
          intro character isHead
          cases count with
          | zero =>
              have isSolid := solid character isHead
              simp only [Cursor.isSolid, Bool.and_eq_true, Bool.not_eq_true'] at isSolid
              exact isSolid.1.2
          | succ count =>
              cases isHead
              decide
        have stillUnknown : cursor.next.lineBreak = none :=
          (Passes.advanceWhile cursor.advance isBrace).lineBreak_eq.trans unknown
        rw [skipBlanksUpTo, if_pos blank]
        exact ih stillUnknown (remaining_next remaining unbraced) steps (by omega)
  refine general _ ?_
  rw [remaining]
  simp

private theorem exists_first_of_fits {item : Item} (fits : item.fits limits = true) :
    ∃ first others, item.written = first :: others ∧ isBrace first = false ∧
      (item.lexeme?.isSome = true → isSolid first = true) := by
  cases item with
  | blank => exact ⟨' ', [], rfl, by decide, fun impossible => by cases impossible⟩
  | comment content => exact ⟨'#', _, rfl, by decide, fun _ => by decide⟩
  | token lexeme =>
      obtain ⟨first, others, written, isSolid⟩ := exists_solid_of_isWritable fits
      have unbraced : isBrace first = false := by
        simp only [Cursor.isSolid, Bool.and_eq_true, Bool.not_eq_true'] at isSolid
        exact isSolid.1.2
      exact ⟨first, others, written, unbraced, fun _ => isSolid⟩

theorem unbraced_items {items : List Item} (fits : ∀ item ∈ items, item.fits limits = true) :
    Unbraced (items.flatMap Item.written) := by
  intro character isHead
  cases items with
  | nil => cases isHead
  | cons item items =>
      obtain ⟨first, others, written, unbraced, -⟩ :=
        exists_first_of_fits (fits item List.mem_cons_self)
      rw [List.flatMap_cons, written] at isHead
      cases isHead
      exact unbraced

/-- Behind a token only a blank or a comment may stand. -/
theorem stops_items {lexeme : Lexeme} {items : List Item}
    (apart : List.IsChain Item.Apart (.token lexeme :: items)) :
    Stops (items.flatMap Item.written) := by
  intro character isHead
  cases items with
  | nil => cases isHead
  | cons item items =>
      have separate := (List.isChain_cons_cons.mp apart).1
      cases item with
      | blank =>
          cases isHead
          exact .inl rfl
      | comment content =>
          cases isHead
          exact .inr rfl
      | token other => rcases separate with impossible | impossible <;> cases impossible

/-- The next token is the next item that is no blank. -/
theorem nextToken_of_item {item : Item} {found : Lexeme} {items : List Item} {count : Nat}
    (isLexeme : item.lexeme? = some found) (unknown : cursor.lineBreak = none)
    (remaining : cursor.remaining =
      List.replicate count ' ' ++ (item :: items).flatMap Item.written)
    (fits : ∀ other ∈ item :: items, other.fits limits = true)
    (apart : List.IsChain Item.Apart (item :: items)) :
    ∃ place after, cursor.nextToken limits = .ok (⟨found, place⟩, after) ∧
      found ≠ .endOfSource ∧ after.lineBreak = none ∧
      after.remaining = items.flatMap Item.written := by
  obtain ⟨fitsItem, fitsItems⟩ := List.forall_mem_cons.mp fits
  obtain ⟨first, others, written, -, solid⟩ := exists_first_of_fits fitsItem
  have isSolid := solid (by rw [isLexeme]; rfl)
  rw [List.flatMap_cons] at remaining
  have start : cursor.restartBuffer.skipBlanks.remaining =
      item.written ++ items.flatMap Item.written := by
    refine @skipBlanks_of_blanks cursor.restartBuffer _ count unknown remaining ?_
    intro character isHead
    rw [written] at isHead
    cases isHead
    exact isSolid
  have startUnknown : cursor.restartBuffer.skipBlanks.lineBreak = none :=
    (lineBreak_skipBlanks _).trans unknown
  have read : ∃ after, cursor.restartBuffer.skipBlanks.lexeme limits = .ok (found, after) ∧
      after.remaining = items.flatMap Item.written := by
    cases item with
    | blank => cases isLexeme
    | comment content =>
        cases isLexeme
        exact lexeme_of_comment start (unbraced_items fitsItems) (of_decide_eq_true fitsItem)
    | token lexeme =>
        cases isLexeme
        exact lexeme_of_written fitsItem start (stops_items apart)
  obtain ⟨after, lexemeRead, afterRemaining⟩ := read
  obtain ⟨characters, moves, -⟩ := passes_of_lexeme lexemeRead
  have goesOn : cursor.restartBuffer.skipBlanks.atEnd = false := by
    rw [atEnd, start, written]
    rfl
  have noBreak : cursor.restartBuffer.skipBlanks.takeLineBreak? = none := by
    apply takeLineBreak?_of_unbroken
    · rw [startUnknown]
      intro shown impossible
      cases impossible
    · intro character isCurrent
      rw [current, start, written] at isCurrent
      cases isCurrent
      simp only [Cursor.isSolid, Bool.and_eq_true, Bool.not_eq_true'] at isSolid
      exact isSolid.2
  refine ⟨cursor.restartBuffer.skipBlanks.position, after, ?_, (ne_of_lexeme lexemeRead).2,
    moves.lineBreak_eq.trans startUnknown, afterRemaining⟩
  rw [Cursor.nextToken, goesOn, if_neg Bool.false_ne_true, noBreak]
  exact except_bind_ok_iff.mpr ⟨_, lexemeRead, rfl⟩

private theorem tokenRun_of_items {items : List Item} {count budget : Nat}
    (unknown : cursor.lineBreak = none)
    (remaining : cursor.remaining = List.replicate count ' ' ++ items.flatMap Item.written)
    (enough : cursor.ahead < budget) (fits : ∀ item ∈ items, item.fits limits = true)
    (apart : items.IsChain Item.Apart) :
    ∃ tokens, cursor.tokenRun limits budget = ⟨tokens, none⟩ ∧
      tokens.map Token.lexeme = items.filterMap Item.lexeme? ++ [.endOfSource] := by
  induction items generalizing cursor count budget with
  | nil =>
      obtain ⟨budget, rfl⟩ := Nat.exists_eq_succ_of_ne_zero (by omega : budget ≠ 0)
      have ended : cursor.restartBuffer.skipBlanks.remaining = [] :=
        @skipBlanks_of_blanks cursor.restartBuffer [] count unknown remaining (by simp)
      have atEnd : cursor.restartBuffer.skipBlanks.atEnd = true := by
        rw [Cursor.atEnd, ended]
        rfl
      refine ⟨[⟨.endOfSource, cursor.restartBuffer.skipBlanks.position⟩], ?_, rfl⟩
      rw [tokenRun, nextToken]
      simp only [atEnd, if_true]
  | cons item items ih =>
      have apartItems : items.IsChain Item.Apart := (List.isChain_cons.mp apart).2
      obtain ⟨-, fitsItems⟩ := List.forall_mem_cons.mp fits
      cases isLexeme : item.lexeme? with
      | none =>
          cases item with
          | blank =>
              rw [List.flatMap_cons, ← List.append_assoc] at remaining
              have longer : List.replicate count ' ' ++ Item.blank.written =
                  List.replicate (count + 1) ' ' := List.replicate_succ'.symm
              rw [longer] at remaining
              exact ih unknown remaining enough fitsItems apartItems
          | comment content => cases isLexeme
          | token lexeme => cases isLexeme
      | some found =>
          obtain ⟨place, after, read, notEnd, afterUnknown, afterRemaining⟩ :=
            nextToken_of_item isLexeme unknown remaining fits apart
          obtain ⟨budget, rfl⟩ := Nat.exists_eq_succ_of_ne_zero (by omega : budget ≠ 0)
          have moved := (ahead_lt_of_nextToken read).resolve_left notEnd
          obtain ⟨tokens, run, lexemes⟩ := @ih after 0 budget afterUnknown afterRemaining
            (by omega) fitsItems apartItems
          refine ⟨⟨found, place⟩ :: tokens, ?_, ?_⟩
          · rw [tokenRun, read]
            simp only [if_neg notEnd, run]
          · rw [List.map_cons, lexemes, List.filterMap_cons, isLexeme]
            rfl

end Cursor

private theorem Lexeme.isSignificant_of_isWritable {limits : Limits} {lexeme : Lexeme}
    (writable : lexeme.isWritable limits = true) : lexeme.isSignificant = true := by
  cases lexeme with
  | comment => cases writable
  | lineBreak => cases writable
  | _ => rfl

/-- Without its comments a written source has the tokens only. -/
theorem filter_lexemes {limits : Limits} {items : List Item}
    (fits : ∀ item ∈ items, item.fits limits = true) :
    (items.filterMap Item.lexeme?).filter Lexeme.isSignificant =
      items.filterMap Item.token? := by
  induction items with
  | nil => rfl
  | cons item items ih =>
      obtain ⟨fitsItem, fitsItems⟩ := List.forall_mem_cons.mp fits
      have others := ih fitsItems
      cases item with
      | blank => exact others
      | comment content => exact others
      | token lexeme =>
          have significant := Lexeme.isSignificant_of_isWritable fitsItem
          change (lexeme :: items.filterMap Item.lexeme?).filter Lexeme.isSignificant =
            lexeme :: items.filterMap Item.token?
          rw [List.filter_cons_of_pos significant, others]

/-- Tokens that are written with blanks and comments between them, no two of them neighbours,
are read back as they were, and so are the comments. -/
theorem written_tokens_are_read_back {limits : Limits} {items : List Item}
    (fits : ∀ item ∈ items, item.fits limits = true) (apart : items.IsChain Item.Apart) :
    ∃ tokens, tokenize limits (String.ofList (items.flatMap Item.written)) = .ok tokens ∧
      tokens.map Token.lexeme = items.filterMap Item.lexeme? ++ [.endOfSource] ∧
      (tokens.map Token.lexeme).filter Lexeme.isSignificant =
        items.filterMap Item.token? ++ [.endOfSource] := by
  have remaining : (Cursor.ofSource (String.ofList (items.flatMap Item.written))).remaining =
      List.replicate 0 ' ' ++ items.flatMap Item.written := by
    unfold Cursor.ofSource
    rw [Cursor.remaining_advanceWhile, String.toList_ofList]
    exact Cursor.dropWhile_of_unbraced (Cursor.unbraced_items fits)
  obtain ⟨tokens, run, lexemes⟩ := Cursor.tokenRun_of_items (Cursor.lineBreak_ofSource _)
    remaining (Nat.lt_succ_self _) fits apart
  refine ⟨tokens, tokenize_eq_ok_iff.mpr run, lexemes, ?_⟩
  rw [lexemes, List.filter_append, filter_lexemes fits]
  rfl

/-- A text that holds a quote, a backslash, a brace and a line break, a comment that holds a
hash, and marks that would be longer if they were neighbours. -/
theorem written_call_is_read_back :
    ∃ items : List Item,
      items.flatMap Item.written =
        "CALL#\\##Print \"\\\"\\\\\x7b\n\"##== < TRUE".toList ∧
      (∀ item ∈ items, item.fits .standard = true) ∧ items.IsChain Item.Apart ∧
      ∃ tokens, tokenize .standard (String.ofList (items.flatMap Item.written)) = .ok tokens ∧
        (tokens.map Token.lexeme).filter Lexeme.isSignificant =
          [.keyword .callWord, .identifier "Print", .text "\"\\\x7b\n", .mark .equal,
            .mark .less, .fact true, .endOfSource] := by
  have fits : ∀ item ∈ [Item.token (.keyword .callWord), .comment "#",
      .token (.identifier "Print"), .blank, .token (.text "\"\\\x7b\n"), .comment "",
      .token (.mark .equal), .blank, .token (.mark .less), .blank, .token (.fact true)],
      item.fits .standard = true := by
    decide +kernel
  have apart : [Item.token (.keyword .callWord), .comment "#",
      .token (.identifier "Print"), .blank, .token (.text "\"\\\x7b\n"), .comment "",
      .token (.mark .equal), .blank, .token (.mark .less), .blank,
      .token (.fact true)].IsChain Item.Apart := by
    decide
  obtain ⟨tokens, read, -, significant⟩ := written_tokens_are_read_back fits apart
  exact ⟨_, by decide +kernel, fits, apart, tokens, read, significant⟩

/-- A fact is a word too, and as such it may be too long. -/
theorem fact_beyond_the_limit_is_not_read_back :
    tokenize { Limits.standard with maxIdentifier := 4 }
        (String.ofList ([Item.token (.fact false)].flatMap Item.written)) =
      .error ⟨.identifierTooBig 4, ⟨1, 6⟩, "FALSE"⟩ := by
  decide +kernel

end Plainspoken
