import Plainspoken.Proofs.Syntax.SideBySide

/-!
# Sources that break off

Where a lexical failure ends the tokens of a source, the failure counts when the last
token before it is used.  So a rule that succeeds on such tokens leaves one of them at
least, and what is left does not begin with the end of the source.  A rule that fails
reports the lexical failure, or it fails at a token that has been delivered.

A source that is read as a program has therefore been split into tokens up to its end, and
one that cannot be split is never read beyond the failure.
-/

namespace Plainspoken

namespace TokenStream

/-- The stream shows the token: it is one of its tokens, or the end of the source. -/
def Shows (stream : TokenStream) (token : Token) : Prop :=
  token ∈ stream.tokens ∨
    ∃ place, stream.ending = .endOfSource place ∧ token = ⟨.endOfSource, place⟩

/-- The failure is the one that ends the stream, or it is reported at a token that the stream
shows. -/
def FailsWith (stream : TokenStream) (failure : BuildError) : Prop :=
  (∃ error, stream.ending = .broken error ∧ failure = .lexical error) ∨
    ∃ cause token, stream.Shows token ∧ failure = Rule.failureAt cause token

/-- The tokens are the last ones of the stream, and one of them is left where the stream
breaks off. -/
def Leaves (stream : TokenStream) (tokens : List Token) : Prop :=
  tokens <:+ stream.tokens ∧ ∀ error, stream.ending = .broken error → tokens ≠ []

variable {stream : TokenStream}

theorem Leaves.shows_first {tokens : List Token} (left : stream.Leaves tokens) :
    stream.Shows (Rule.first stream.ending tokens) := by
  cases tokens with
  | cons token tokens => exact .inl (left.1.subset List.mem_cons_self)
  | nil =>
      cases ending : stream.ending with
      | endOfSource place => exact .inr ⟨place, ending, rfl⟩
      | broken error => exact absurd rfl (left.2 error ending)

theorem Leaves.advance {tokens : List Token} (left : stream.Leaves tokens) :
    Abreast (fun failure failure' => failure = failure' ∧ stream.FailsWith failure)
      (fun after after' => after.2 = after'.2 ∧ stream.Leaves after.2)
      (Rule.advance stream.ending tokens) (Rule.advance stream.ending tokens) := by
  have suffix : tokens.tail <:+ stream.tokens := (List.tail_suffix tokens).trans left.1
  cases ending : stream.ending with
  | endOfSource place => exact .ok ⟨rfl, suffix, fun error broken => nomatch ending ▸ broken⟩
  | broken error =>
      match tokens with
      | [] => exact absurd rfl (left.2 error ending)
      | [token] => exact .error ⟨rfl, .inl ⟨error, ending, rfl⟩⟩
      | token :: next :: others => exact .ok ⟨rfl, suffix, fun _ _ => List.cons_ne_nil _ _⟩

/-- The stream beside itself, with what is left of it and how reading it can fail. -/
def besideItself (stream : TokenStream) : Rule.Pairing fun _ => True where
  leftEnding := stream.ending
  rightEnding := stream.ending
  Opposite left right := left = right ∧ stream.Leaves left
  Failed left right := left = right ∧ stream.FailsWith left
  lexeme_eq := by
    rintro _ _ ⟨rfl, -⟩
    rfl
  isKnown := fun _ => trivial
  advance := by
    rintro _ _ ⟨rfl, left⟩
    exact left.advance
  fail := by
    rintro _ _ cause ⟨rfl, left⟩
    exact ⟨rfl, .inr ⟨cause, _, left.shows_first, rfl⟩⟩

/-- What a rule leaves of the stream when it succeeds. -/
theorem leaves_of_reads {α : Type} {related : α → α → Prop} {rule : Rule α}
    (reads : stream.besideItself.Reads related rule rule) {tokens rest : List Token} {result : α}
    (left : stream.Leaves tokens) (read : rule stream.ending tokens = .ok (result, rest)) :
    stream.Leaves rest := by
  have outcome : Abreast _ _ (rule stream.ending tokens) (rule stream.ending tokens) :=
    reads ⟨rfl, left⟩
  rw [read] at outcome
  cases outcome with
  | ok both => exact both.2.2

/-- How a rule fails on the stream. -/
theorem failsWith_of_reads {α : Type} {related : α → α → Prop} {rule : Rule α}
    (reads : stream.besideItself.Reads related rule rule) {tokens : List Token}
    {failure : BuildError} (left : stream.Leaves tokens)
    (failed : rule stream.ending tokens = .error failure) : stream.FailsWith failure := by
  have outcome : Abreast _ _ (rule stream.ending tokens) (rule stream.ending tokens) :=
    reads ⟨rfl, left⟩
  rw [failed] at outcome
  cases outcome with
  | error both => exact both.2

end TokenStream

namespace Grammar

private theorem not_expect_of_kind_ne {α : Type} {kind : TokenKind} {token : Token}
    (other : token.kind ≠ kind)
    {ending : StreamEnd} {others : List Token} {next : Unit → Rule α} {result : α × List Token} :
    (Rule.expect kind >>= next) ending (token :: others) ≠ .ok result := by
  have absent : ([kind].contains token.kind) = false := by simpa using other
  simp only [Rule.expect, Rule.accept, Rule.acceptAny, Rule.current, bind, Rule.andThen,
    List.headD_cons, absent]
  intro read
  cases read

/-- No program is read from a stream that breaks off. -/
theorem program_of_broken {stream : TokenStream} {error : LexicalError}
    (broken : stream.ending = .broken error)
    (inside : ∀ token ∈ stream.tokens, token.kind ≠ .endOfSource) (some : stream.tokens ≠ [])
    {rest : List Token} {result : Statement} (fuel : Nat) :
    program fuel stream.ending stream.tokens ≠ .ok (result, rest) := by
  intro read
  change Rule.andThen _ _ _ _ = _ at read
  unfold Rule.andThen at read
  split at read
  · next body between bodyRead =>
    have reads : stream.besideItself.Reads (Statement.Counterpart _ .statement)
        (sequence fuel (statement fuel)) (sequence fuel (statement fuel)) :=
      sequence_reads (statement_finds fuel)
    obtain ⟨suffix, someLeft⟩ :=
      TokenStream.leaves_of_reads reads ⟨List.suffix_rfl, fun _ _ => some⟩ bodyRead
    -- a token is left, and it is not the end of the source
    cases between with
    | nil => exact someLeft error broken rfl
    | cons token others =>
        have isOther : token.kind ≠ .endOfSource := inside token (suffix.subset (by simp))
        exact not_expect_of_kind_ne isOther read
  · cases read

end Grammar

namespace TokenStream

theorem kind_ne_endOfSource {run : TokenRun} {token : Token} (member : token ∈ (ofRun run).tokens) :
    token ∈ run.tokens ∧ token.kind ≠ .endOfSource := by
  obtain ⟨isRead, kept⟩ := List.mem_filter.mp member
  simp only [Bool.and_eq_true, bne_iff_ne] at kept
  exact ⟨isRead, kept.2⟩

/-- A stream that breaks off at once is not read at all. -/
theorem program_cases (stream : TokenStream) :
    (∃ error, stream.ending = .broken error ∧ stream.tokens = [] ∧
        stream.program = .error (.lexical error)) ∨
      stream.Leaves stream.tokens ∧ stream.program =
        (Grammar.program (stream.tokens.length + 1) stream.ending stream.tokens).map Prod.fst := by
  obtain ⟨tokens, ending⟩ := stream
  cases ending with
  | endOfSource place => exact .inr ⟨⟨List.suffix_rfl, nofun⟩, rfl⟩
  | broken error =>
      cases tokens with
      | nil => exact .inl ⟨error, rfl, rfl, rfl⟩
      | cons token tokens => exact .inr ⟨⟨List.suffix_rfl, fun _ _ => List.cons_ne_nil _ _⟩, rfl⟩

/-- A stream that is read as a program does not break off. -/
theorem failure_eq_none_of_program {run : TokenRun} {program : Statement}
    (read : (ofRun run).program = .ok program) : run.failure = none := by
  cases broken : run.failure with
  | none => rfl
  | some error =>
      have ending : (ofRun run).ending = .broken error := by simp only [ofRun, broken]
      obtain ⟨_, -, -, failed⟩ | ⟨left, isRead⟩ := (ofRun run).program_cases
      · rw [failed] at read
        cases read
      · rw [isRead] at read
        cases given : Grammar.program ((ofRun run).tokens.length + 1) (ofRun run).ending
            (ofRun run).tokens with
        | error failure =>
            rw [given] at read
            cases read
        | ok result =>
            exact absurd given (Grammar.program_of_broken ending
              (fun token member => (kind_ne_endOfSource member).2) (left.2 error ending) _)

/-- A stream fails with what breaks it off, or at a token that it shows. -/
theorem failsWith_of_program {stream : TokenStream} {failure : BuildError}
    (failed : stream.program = .error failure) : stream.FailsWith failure := by
  obtain ⟨error, ending, -, isRead⟩ | ⟨left, isRead⟩ := stream.program_cases
  · rw [isRead] at failed
    cases failed
    exact .inl ⟨error, ending, rfl⟩
  · rw [isRead] at failed
    have reads : stream.besideItself.Reads (Statement.Counterpart _ .statement)
        (Grammar.program (stream.tokens.length + 1)) (Grammar.program (stream.tokens.length + 1)) :=
      Grammar.program_reads _
    cases given : Grammar.program (stream.tokens.length + 1) stream.ending stream.tokens with
    | ok result =>
        rw [given] at failed
        cases failed
    | error failure' =>
        rw [given] at failed
        cases failed
        exact failsWith_of_reads reads left given

end TokenStream

/-- A source that is read as a program is split into tokens up to its end. -/
theorem TokenRun.failure_eq_none_of_parse {limits : Limits} {source : String}
    {program : Statement} (read : parse limits source = .ok program) :
    (TokenRun.ofSource limits source).failure = none :=
  TokenStream.failure_eq_none_of_program read

theorem tokenize_eq_error_iff {limits : Limits} {source : String} {error : LexicalError} :
    tokenize limits source = .error error ↔
      (TokenStream.ofSource limits source).ending = .broken error := by
  unfold tokenize TokenRun.complete TokenStream.ofSource TokenStream.ofRun
  cases (TokenRun.ofSource limits source).failure with
  | none => simp
  | some broken => simp

/-- Reading a source as a program agrees with splitting it into tokens.  A lexical failure of
the one is the failure of the other, and a program is read only from a source that is split
up to its end.  Where a source cannot be split, reading it reports that failure or fails at a
token that was split off before. -/
theorem parsing_agrees_with_splitting (limits : Limits) (source : String) :
    (∀ error, parse limits source = .error (.lexical error) →
        tokenize limits source = .error error) ∧
      (∀ program, parse limits source = .ok program →
        ∃ tokens, tokenize limits source = .ok tokens) ∧
      (∀ tokens, tokenize limits source = .ok tokens →
        ∀ error, parse limits source ≠ .error (.lexical error)) ∧
      ∀ error, tokenize limits source = .error error →
        parse limits source = .error (.lexical error) ∨
          ∃ cause, ∃ token ∈ (TokenRun.ofSource limits source).tokens,
            token.lexeme.isSignificant = true ∧
              parse limits source = .error (.grammar ⟨cause, token.span, token.display⟩) := by
  have lexical (error : LexicalError) (failed : parse limits source = .error (.lexical error)) :
      tokenize limits source = .error error := by
    obtain ⟨_, ending, ⟨⟩⟩ | ⟨cause, token, -, ⟨⟩⟩ := TokenStream.failsWith_of_program failed
    exact tokenize_eq_error_iff.mpr ending
  refine ⟨lexical, ?_, ?_, ?_⟩
  · intro program read
    refine ⟨(TokenRun.ofSource limits source).tokens, ?_⟩
    simp only [tokenize, TokenRun.complete, TokenRun.failure_eq_none_of_parse read]
  · intro tokens split error failed
    rw [lexical error failed] at split
    cases split
  · intro error failed
    have ending := tokenize_eq_error_iff.mp failed
    cases read : parse limits source with
    | ok program =>
        have complete := TokenRun.failure_eq_none_of_parse read
        simp [tokenize, TokenRun.complete, complete] at failed
    | error failure =>
        obtain ⟨error', ending', rfl⟩ | ⟨cause, token, shown, rfl⟩ :=
          TokenStream.failsWith_of_program read
        · rw [ending] at ending'
          cases ending'
          exact .inl rfl
        · rcases shown with member | ⟨place, ending', -⟩
          · obtain ⟨isRead, kept⟩ := List.mem_filter.mp member
            simp only [Bool.and_eq_true] at kept
            exact .inr ⟨cause, token, isRead, kept.1, rfl⟩
          · rw [ending] at ending'
            cases ending'

end Plainspoken
