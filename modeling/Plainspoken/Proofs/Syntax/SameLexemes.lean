import Plainspoken.Proofs.Source.Braces
import Plainspoken.Proofs.Syntax.BrokenSources

/-!
# Streams with the same lexemes

Two streams with the same lexemes that end alike are read as the same program, positions
apart, or they fail for the same reason.  So what does not count among the tokens of a source
does not count in its programs either: braces, blanks and line breaks, and comments.
-/

namespace Plainspoken

open Rule (Pairing)

/-- Both streams end with the source, or both break off for the same reason. -/
inductive StreamEnd.Alike : StreamEnd → StreamEnd → Prop where
  | endOfSource {place place' : Span} : Alike (.endOfSource place) (.endOfSource place')
  | broken {error error' : LexicalError} (sameCause : error.cause = error'.cause) :
      Alike (.broken error) (.broken error')

/-- The failures are reported alike, apart from the place and what is quoted. -/
structure BuildError.Alike (left right : BuildError) : Prop where
  kind : left.kind = right.kind
  arguments : left.arguments = right.arguments

private theorem Rule.lexeme_first_eq {left right : StreamEnd} (ends : left.Alike right)
    {tokens tokens' : List Token} (same : tokens.map Token.lexeme = tokens'.map Token.lexeme) :
    (first left tokens).lexeme = (first right tokens').lexeme := by
  cases tokens with
  | nil =>
      cases List.map_eq_nil_iff.mp same.symm
      cases ends <;> rfl
  | cons token tokens =>
      obtain ⟨token', others, rfl, sameFirst, -⟩ := List.map_eq_cons_iff.mp same.symm
      exact sameFirst.symm

theorem Rule.advance_alike {left right : StreamEnd} (ends : left.Alike right)
    {tokens tokens' : List Token} (same : tokens.map Token.lexeme = tokens'.map Token.lexeme) :
    Abreast BuildError.Alike
      (fun after after' => after.2.map Token.lexeme = after'.2.map Token.lexeme)
      (advance left tokens) (advance right tokens') := by
  have sameTail : tokens.tail.map Token.lexeme = tokens'.tail.map Token.lexeme := by
    rw [List.map_tail, List.map_tail, same]
  cases ends with
  | endOfSource => exact .ok sameTail
  | broken sameCause =>
      have sameLength : tokens.length = tokens'.length := by
        simpa using congrArg List.length same
      match tokens, tokens', sameLength with
      | [], [], _ => exact .ok sameTail
      | [_], [_], _ =>
          exact .error ⟨congrArg LexicalCause.kind sameCause,
            congrArg LexicalCause.arguments sameCause⟩
      | _ :: _ :: _, _ :: _ :: _, _ => exact .ok sameTail

/-- Two sequences with the same lexemes, side by side. -/
def Rule.Pairing.ofSameLexemes {left right : StreamEnd} (ends : left.Alike right) :
    Pairing fun _ => True where
  leftEnding := left
  rightEnding := right
  Opposite tokens tokens' := tokens.map Token.lexeme = tokens'.map Token.lexeme
  Failed := BuildError.Alike
  lexeme_eq := Rule.lexeme_first_eq ends
  isKnown _ := trivial
  advance := Rule.advance_alike ends
  fail _ _ := ⟨rfl, rfl⟩

/-- Streams with the same lexemes that end alike are read as the same program, positions
apart, or fail alike. -/
theorem TokenStream.program_alike {left right : TokenStream} (ends : left.ending.Alike right.ending)
    (same : left.tokens.map Token.lexeme = right.tokens.map Token.lexeme) :
    Abreast BuildError.Alike (fun program program' => program.unplaced = program'.unplaced)
      left.program right.program := by
  obtain ⟨tokens, ending⟩ := left
  obtain ⟨tokens', ending'⟩ := right
  have sameLength : tokens.length = tokens'.length := by
    simpa using congrArg List.length same
  have outcome : Abreast BuildError.Alike _ (Grammar.program (tokens.length + 1) ending tokens)
      (Grammar.program (tokens.length + 1) ending' tokens') :=
    @Grammar.program_reads _ (.ofSameLexemes ends) (tokens.length + 1) _ _ same
  have read : Abreast BuildError.Alike
      (fun program program' => program.unplaced = program'.unplaced)
      ((Grammar.program (tokens.length + 1) ending tokens).map Prod.fst)
      ((Grammar.program (tokens'.length + 1) ending' tokens').map Prod.fst) := by
    rw [← sameLength]
    exact outcome.map fun _ _ both => both.1.unplaced_eq
  cases ends with
  | endOfSource => exact read
  | broken sameCause =>
      cases tokens with
      | nil =>
          cases List.map_eq_nil_iff.mp same.symm
          exact .error ⟨congrArg LexicalCause.kind sameCause,
            congrArg LexicalCause.arguments sameCause⟩
      | cons token tokens =>
          obtain ⟨token', others, rfl, -⟩ := List.map_eq_cons_iff.mp same.symm
          exact read

/-- What the grammar sees of a run is in its essence. -/
theorem TokenStream.ofRun_alike {run run' : TokenRun} (same : run.essence = run'.essence) :
    (ofRun run).ending.Alike (ofRun run').ending ∧
      (ofRun run).tokens.map Token.lexeme = (ofRun run').tokens.map Token.lexeme := by
  obtain ⟨sameLexemes, sameFailure⟩ := Prod.mk.inj same
  have seen (run : TokenRun) : (ofRun run).tokens.map Token.lexeme =
      ((run.tokens.map Token.lexeme).filter Lexeme.isSignificant).filter
        (·.kind != .endOfSource) := by
    rw [List.filter_filter, List.filter_map]
    refine congrArg _ (List.filter_congr fun token _ => ?_)
    exact Bool.and_comm _ _
  refine ⟨?_, by rw [seen, seen, sameLexemes]⟩
  unfold ofRun
  cases failure : run.failure with
  | none =>
      rw [failure] at sameFailure
      rw [Option.map_eq_none_iff.mp sameFailure.symm]
      exact .endOfSource
  | some error =>
      rw [failure] at sameFailure
      obtain ⟨error', failure', sameCause⟩ := Option.map_eq_some_iff.mp sameFailure.symm
      rw [failure']
      exact .broken sameCause.symm

/-- Braces outside of texts and comments mean nothing.  Without them a source has the same
tokens that the grammar sees, up to its end or up to a failure for the same reason, and it is
read as the same program, positions apart, or fails alike. -/
theorem braces_are_noise (limits : Limits) (source : String) :
    (TokenRun.ofSource limits (withoutBraces source)).essence =
        (TokenRun.ofSource limits source).essence ∧
      Abreast BuildError.Alike (fun program program' => program.unplaced = program'.unplaced)
        (parse limits (withoutBraces source)) (parse limits source) := by
  have same := essence_of_withoutBraces_eq limits (withoutBraces_idempotent source)
  obtain ⟨ends, sameLexemes⟩ := TokenStream.ofRun_alike same
  exact ⟨same, TokenStream.program_alike ends sameLexemes⟩

end Plainspoken
