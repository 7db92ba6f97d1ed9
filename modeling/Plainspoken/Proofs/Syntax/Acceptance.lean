import Plainspoken.Proofs.Syntax.Statements
import Plainspoken.Proofs.Syntax.Tokens

/-!
# What is a program

A source whose tokens can be read is a program exactly if the documented grammar
derives its significant tokens.  The fuel of the rules is no restriction, since
there is more of it than there are tokens.
-/

namespace Plainspoken

namespace Syntax

open Form Rule

variable {span : Span} {fuel : Nat} {tokens : List Token}

theorem program_accepts_iff (inside : ∀ token ∈ tokens, token.kind ≠ .endOfSource)
    (enough : tokens.length < fuel) :
    (∃ result, Grammar.program fuel (.endOfSource span) tokens = .ok result) ↔
      Derives (.symbol .sequence) tokens := by
  have sequence := sequence_reads (statement_alternative span fuel) (Nat.le_refl fuel)
  constructor
  · rintro ⟨⟨result, rest⟩, read⟩
    obtain ⟨body, between, bodyRead, continued⟩ := bind_ok_iff.mp read
    obtain ⟨_, rest', expectRead, _⟩ := bind_ok_iff.mp continued
    obtain ⟨accepted, _, acceptRead, ended⟩ := bind_ok_iff.mp expectRead
    obtain ⟨-, used, rfl, derived⟩ := sequence.sound bodyRead
    rw [accept_eq] at acceptRead
    have atEnd : nextKind between = .endOfSource := by
      by_cases same : nextKind between = .endOfSource
      · exact same
      · rw [if_neg same] at acceptRead
        cases acceptRead
        exact absurd ended fail_not_ok
    cases between with
    | nil => simpa using derived
    | cons token between => exact absurd atEnd (inside token (by simp))
  · intro derived
    obtain ⟨body, -, read⟩ := sequence.complete derived
      (by decide : nextKind [] ∉ [.keyword .elseWord] ++ starts .sequence) (by simpa using enough)
    rw [List.append_nil] at read
    exact ⟨_, bind_of_ok read⟩

theorem derives_program_iff {ending : Token} (isEnd : ending.kind = .endOfSource) :
    Derives (.symbol .program) (tokens ++ [ending]) ↔ Derives (.symbol .sequence) tokens := by
  rw [derives_symbol_iff]
  constructor
  · intro derived
    obtain ⟨body, last, split, bodyDerived, lastDerived⟩ := derives_cons_iff.mp derived
    obtain ⟨token, rfl, -⟩ := derives_token_iff.mp (derives_only_iff.mp lastDerived)
    obtain ⟨rfl, -⟩ := List.append_inj' split rfl
    exact bodyDerived
  · intro derived
    exact .both derived (derives_only_iff.mpr (.token isEnd))

end Syntax

open Syntax

/-- A source whose tokens can be read is accepted exactly if its significant
tokens are derivable, with distinct names for the parameters of each function. -/
theorem accepted_iff_derivable {limits : Limits} {source : String} {tokens : List Token}
    (read : tokenize limits source = .ok tokens) :
    (∃ program, parse limits source = .ok program) ↔
      Derives (.symbol .program) (tokens.filter (·.lexeme.isSignificant)) := by
  obtain ⟨body, ending, place, stream, significant, isEnd, others⟩ :=
    TokenStream.ofSource_of_tokenize read
  have result : parse limits source =
      (Grammar.program (body.length + 1) (.endOfSource place) body).map Prod.fst := by
    unfold parse
    rw [stream]
    rfl
  rw [significant, derives_program_iff isEnd,
    ← @program_accepts_iff place _ _ others (Nat.lt_succ_self _), result]
  cases Grammar.program (body.length + 1) (.endOfSource place) body with
  | error error => simp [Except.map]
  | ok result => simp [Except.map]

/-- The tokens of a conditional inside another one and a comment before the
`ELSE` that either of them could take. -/
def danglingElse : List Token :=
  [⟨.keyword .ifWord, ⟨1, 1⟩⟩, ⟨.identifier "a", ⟨1, 4⟩⟩, ⟨.keyword .doWord, ⟨1, 6⟩⟩,
    ⟨.keyword .ifWord, ⟨1, 9⟩⟩, ⟨.identifier "b", ⟨1, 12⟩⟩, ⟨.keyword .doWord, ⟨1, 14⟩⟩,
    ⟨.mark .semicolon, ⟨1, 17⟩⟩, ⟨.comment "or", ⟨1, 19⟩⟩, ⟨.keyword .elseWord, ⟨1, 24⟩⟩,
    ⟨.mark .semicolon, ⟨1, 29⟩⟩, ⟨.endOfSource, ⟨1, 30⟩⟩]

theorem dangling_else_is_derivable :
    tokenize .standard "IF a DO IF b DO ; #or# ELSE ;" = .ok danglingElse ∧
      Derives (.symbol .program) (danglingElse.filter (·.lexeme.isSignificant)) := by
  have read : tokenize .standard "IF a DO IF b DO ; #or# ELSE ;" = .ok danglingElse := rfl
  exact ⟨read, (accepted_iff_derivable read).mp ⟨_, rfl⟩⟩

end Plainspoken
