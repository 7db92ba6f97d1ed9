import Plainspoken.Proofs.Source.Passage

/-!
# Where tokens are found

The tokens of a source together with the cursors before and behind each of them.  They tell
which characters a token takes, where it stands, and which form of line break the source has
shown by then: the first line break fixes it for the rest of the source.
-/

namespace Plainspoken

/-- A token with the cursor on its first character and the one behind it. -/
structure Finding where
  start : Cursor
  token : Token
  rest : Cursor

namespace Finding

/-- The characters that a token takes, with the braces among and behind them. -/
def characters (finding : Finding) : List Char :=
  finding.start.remaining.take (finding.start.ahead - finding.rest.ahead)

/-- The place of the first character of a token. -/
def place (source : List Char) (finding : Finding) : Nat :=
  source.length - finding.start.ahead

/-- The place behind the last character of a token. -/
def stop (source : List Char) (finding : Finding) : Nat :=
  source.length - finding.rest.ahead

def isBreak (finding : Finding) : Bool :=
  finding.token.lexeme == .lineBreak

def isBody (finding : Finding) : Bool :=
  finding.token.lexeme.isBody

theorem characters_eq {finding : Finding} {passed : List Char}
    (split : finding.start.remaining = passed ++ finding.rest.remaining) :
    finding.characters = passed := by
  have length := congrArg List.length split
  rw [List.length_append] at length
  have count : finding.start.ahead - finding.rest.ahead = passed.length := by
    unfold Cursor.ahead
    omega
  rw [characters, count, split, List.take_left]

end Finding

/-- The tokens from the cursor on, with where each of them stands. -/
def Cursor.findings (limits : Limits) : Nat → Cursor → List Finding
  | 0, _ => []
  | budget + 1, cursor =>
      match cursor.nextToken limits with
      | .error _ => []
      | .ok (token, rest) =>
          let finding : Finding := ⟨cursor.restartBuffer.skipBlanks, token, rest⟩
          if token.lexeme = .endOfSource then [finding]
          else finding :: Cursor.findings limits budget rest

/-- The tokens of a source, with where each of them stands. -/
def findings (limits : Limits) (source : String) : List Finding :=
  let cursor := Cursor.ofSource source
  cursor.findings limits (cursor.remaining.length + 1)

/-- The form of line break that a source has shown by its end. -/
def shownBreak? (limits : Limits) (source : String) : Option LineBreak :=
  (findings limits source).getLast?.bind (·.rest.lineBreak)

theorem map_token_findings (limits : Limits) (budget : Nat) (cursor : Cursor) :
    (cursor.findings limits budget).map Finding.token =
      (cursor.tokenRun limits budget).tokens := by
  induction budget generalizing cursor with
  | zero => rfl
  | succ budget ih =>
      unfold Cursor.findings Cursor.tokenRun
      cases cursor.nextToken limits with
      | error error => rfl
      | ok next =>
          dsimp only
          split
          · rfl
          · rw [List.map_cons, ih]

theorem tokenize_eq_ok_iff {limits : Limits} {source : String} {tokens : List Token} :
    tokenize limits source = .ok tokens ↔ TokenRun.ofSource limits source = ⟨tokens, none⟩ := by
  unfold tokenize TokenRun.complete
  obtain ⟨found, failure⟩ := TokenRun.ofSource limits source
  cases failure <;> simp

theorem map_token_findings_of_tokenize {limits : Limits} {source : String} {tokens : List Token}
    (read : tokenize limits source = .ok tokens) :
    (findings limits source).map Finding.token = tokens := by
  have complete : (TokenRun.ofSource limits source).tokens = tokens := by
    rw [tokenize_eq_ok_iff.mp read]
  exact (map_token_findings limits _ _).trans complete

/-! ## The form of line break that is shown -/

namespace Cursor

variable {limits : Limits} {budget : Nat} {cursor rest : Cursor}

theorem lineBreak_skipBlanks (cursor : Cursor) :
    cursor.skipBlanks.lineBreak = cursor.lineBreak := by
  unfold skipBlanks
  generalize cursor.remaining.length = steps
  induction steps generalizing cursor with
  | zero => rfl
  | succ steps ih =>
      unfold skipBlanksUpTo
      split
      · rw [ih]
        exact (Passes.advanceWhile cursor.advance isBrace).lineBreak_eq
      · rfl

/-- The form of line break stays, once it is known. -/
theorem lineBreak_of_nextToken {token : Token}
    (read : cursor.nextToken limits = .ok (token, rest)) :
    rest.lineBreak = cursor.lineBreak ∨
      cursor.lineBreak = none ∧ ∀ form, rest.lineBreak = some form → form.Proper := by
  have start : cursor.restartBuffer.skipBlanks.lineBreak = cursor.lineBreak :=
    lineBreak_skipBlanks cursor.restartBuffer
  obtain ⟨-, ⟨-, rfl⟩ | ⟨-, taken⟩ | ⟨-, -, lexemeRead⟩⟩ := nextToken_cases read
  · exact .inl start
  · obtain ⟨form, known | ⟨unknown, proper⟩, -, rfl⟩ := takeLineBreak?_cases taken
    · exact .inl (known.symm.trans start)
    · refine .inr ⟨start ▸ unknown, fun other isForm => ?_⟩
      cases isForm
      exact proper
  · obtain ⟨characters, moves, -⟩ := passes_of_lexeme lexemeRead
    exact .inl (moves.lineBreak_eq.trans start)

/-- Where no line break can begin, the next token is the lexeme there. -/
theorem nextToken_of_lexeme {character : Char}
    (known : ∀ form, cursor.lineBreak = some form → form.Proper)
    (isCurrent : cursor.restartBuffer.skipBlanks.current = some character)
    (unbroken : breaksLine character = false) :
    cursor.nextToken limits =
      (cursor.restartBuffer.skipBlanks.lexeme limits).map fun found =>
        (⟨found.1, cursor.restartBuffer.skipBlanks.position⟩, found.2) := by
  have sameForm : cursor.restartBuffer.skipBlanks.lineBreak = cursor.lineBreak :=
    lineBreak_skipBlanks cursor.restartBuffer
  unfold nextToken
  dsimp only
  generalize cursor.restartBuffer.skipBlanks = start at isCurrent sameForm ⊢
  have notEnd : start.atEnd = false := by
    obtain ⟨tail, remaining⟩ := List.head?_eq_some_iff.mp isCurrent
    rw [atEnd, remaining]
    rfl
  have noBreak : start.takeLineBreak? = none := by
    refine takeLineBreak?_of_unbroken (sameForm ▸ known) fun other isOther => ?_
    rw [isCurrent] at isOther
    cases isOther
    exact unbroken
  rw [notEnd, noBreak, if_neg Bool.false_ne_true]
  cases start.lexeme limits <;> rfl

/-- The tokens from the cursor on: a first one, and those behind it. -/
theorem findings_succ (limits : Limits) (budget : Nat) (cursor : Cursor) :
    cursor.findings limits (budget + 1) = [] ∨ ∃ token rest others,
      cursor.nextToken limits = .ok (token, rest) ∧
      cursor.findings limits (budget + 1) =
        ⟨cursor.restartBuffer.skipBlanks, token, rest⟩ :: others ∧
      (others = [] ∨ token.lexeme ≠ .endOfSource ∧ others = rest.findings limits budget) := by
  cases read : cursor.nextToken limits with
  | error error => exact .inl (by simp [findings, read])
  | ok next =>
      obtain ⟨token, rest⟩ := next
      by_cases ends : token.lexeme = .endOfSource
      · exact .inr ⟨token, rest, [], rfl, by simp [findings, read, ends], .inl rfl⟩
      · exact .inr ⟨token, rest, _, rfl, by simp [findings, read, ends], .inr ⟨ends, rfl⟩⟩

private theorem lineBreak_of_mem_findings {form : LineBreak}
    (known : cursor.lineBreak = some form) :
    ∀ finding ∈ cursor.findings limits budget, finding.rest.lineBreak = some form := by
  induction budget generalizing cursor with
  | zero => exact fun _ member => (List.not_mem_nil member).elim
  | succ budget ih =>
      obtain none | ⟨token, rest, others, read, split, later⟩ := findings_succ limits budget cursor
      · simp [none]
      · have restKnown : rest.lineBreak = some form := by
          obtain same | ⟨unknown, -⟩ := lineBreak_of_nextToken read
          · rw [same, known]
          · rw [known] at unknown
            cases unknown
        rw [split]
        obtain rfl | ⟨-, rfl⟩ := later
        · simpa using restKnown
        · exact List.forall_mem_cons.mpr ⟨restKnown, ih restKnown⟩

theorem proper_of_mem_findings
    (proper : ∀ form, cursor.lineBreak = some form → form.Proper) :
    ∀ finding ∈ cursor.findings limits budget, ∀ form,
      finding.rest.lineBreak = some form → form.Proper := by
  induction budget generalizing cursor with
  | zero => exact fun _ member => (List.not_mem_nil member).elim
  | succ budget ih =>
      obtain none | ⟨token, rest, others, read, split, later⟩ := findings_succ limits budget cursor
      · simp [none]
      · have restProper : ∀ form, rest.lineBreak = some form → form.Proper := by
          obtain same | ⟨-, shown⟩ := lineBreak_of_nextToken read
          · rw [same]
            exact proper
          · exact shown
        rw [split]
        obtain rfl | ⟨-, rfl⟩ := later
        · simpa using restProper
        · exact List.forall_mem_cons.mpr ⟨restProper, ih restProper⟩

/-- The form that one token shows is the form of all that follow. -/
theorem lineBreak_of_getLast? {last finding : Finding} {form : LineBreak}
    (isLast : (cursor.findings limits budget).getLast? = some last)
    (member : finding ∈ cursor.findings limits budget)
    (shown : finding.rest.lineBreak = some form) : last.rest.lineBreak = some form := by
  induction budget generalizing cursor with
  | zero => exact (List.not_mem_nil member).elim
  | succ budget ih =>
      obtain none | ⟨token, rest, others, read, split, later⟩ := findings_succ limits budget cursor
      · rw [none] at member
        exact (List.not_mem_nil member).elim
      · rw [split] at isLast member
        obtain rfl | ⟨-, rfl⟩ := later
        · cases isLast
          obtain rfl := List.mem_singleton.mp member
          exact shown
        · obtain rfl | member := List.mem_cons.mp member
          · obtain rfl | isLater := List.mem_cons.mp (List.mem_of_getLast? isLast)
            · exact shown
            · exact lineBreak_of_mem_findings shown last isLater
          · refine ih ?_ member
            rwa [List.getLast?_cons_of_ne_nil (List.ne_nil_of_mem member)] at isLast

/-- The cursor on the first character of a source, braces included. -/
theorem ofSource_crosses (source : String) :
    ∃ start : Cursor, start.remaining = source.toList ∧ start.position = .firstCharacter ∧
      start.lineBreak = none ∧ start.Crosses (.ofSource source) :=
  ⟨_, rfl, rfl, rfl, .advanceWhile _ fun _ => breaksLine_eq_false_of_isBrace⟩

theorem lineBreak_ofSource (source : String) :
    (ofSource source).lineBreak = none := by
  obtain ⟨start, -, -, unknown, characters, passes, -⟩ := ofSource_crosses source
  rw [passes.lineBreak_eq, unknown]

end Cursor

end Plainspoken
