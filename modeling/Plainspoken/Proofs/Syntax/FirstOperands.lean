import Plainspoken.Proofs.Source.Progress
import Plainspoken.Proofs.Syntax.BrokenSources
import Plainspoken.Proofs.Syntax.ProbingStatements

/-!
# Where composite expressions start

In the tree of a program an operation, a ternary and a pipe start where their first operand
does.  An assignment does not: it starts where the next target or the value after its own
target starts.  Its place is therefore never that of its target, but one further on.
-/

namespace Plainspoken

namespace Expression

theorem StartsWithOperand.mono {Behind Behind' : Span → Span → Prop} {expression : Expression}
    (starts : expression.StartsWithOperand Behind)
    (implied : ∀ place later, Behind place later → Behind' place later) :
    expression.StartsWithOperand Behind' := by
  cases expression with
  | assign place target value => exact ⟨implied _ _ starts.1, starts.2⟩
  | _ => exact starts

end Expression

namespace TokenStream

/-- The tokens that the grammar sees stand in the order of their positions. -/
theorem pairwise_before (limits : Limits) (source : String) :
    ((ofSource limits source).tokens.map Token.span).Pairwise Span.Before := by
  have ordered : ((TokenRun.ofSource limits source).tokens.map Token.span).Pairwise
      Span.Before := by
    have scans : (Cursor.ofSource source).Scans limits (findings limits source)
        (TokenRun.ofSource limits source).failure :=
      Cursor.scans_findings (Nat.lt_succ_self _)
    have same : (findings limits source).map Finding.token =
        (TokenRun.ofSource limits source).tokens := map_token_findings limits _ _
    rw [← same, List.map_map]
    exact List.pairwise_map.mpr scans.pairwise_before
  exact ordered.sublist (List.filter_sublist.map Token.span)

private theorem before_of_follows {limits : Limits} {source : String} {place later : Span}
    (follows : Syntax.Follows (ofSource limits source).tokens place later) :
    place.Before later := by
  have pair := (pairwise_before limits source).sublist follows
  exact (List.pairwise_cons.mp pair).1 later (List.mem_singleton_self later)

/-- In the program that a stream is read as, everything starts where it should. -/
theorem allArranged_of_program {stream : TokenStream} {program : Statement}
    (read : stream.program = .ok program) : Syntax.AllArranged stream.tokens program := by
  obtain ⟨_, -, -, failed⟩ | ⟨-, isRead⟩ := stream.program_cases
  · cases failed.symm.trans read
  · rw [isRead] at read
    cases given : Grammar.program (stream.tokens.length + 1) stream.ending stream.tokens with
    | error failure =>
        rw [given] at read
        cases read
    | ok result =>
        obtain ⟨body, rest⟩ := result
        rw [given] at read
        cases read
        obtain ⟨body', between, bodyRead, ended⟩ := Syntax.bind_ok_iff.mp given
        obtain ⟨_, _, -, same⟩ := Syntax.bind_ok_iff.mp ended
        obtain ⟨rfl, rfl⟩ := Syntax.pure_ok_iff.mp same
        have statements := @Syntax.statement_probes stream.tokens (stream.tokens.length + 1) _ _
          (Nat.le_refl _) (Nat.le_refl _)
        have sequences := Syntax.sequence_consumes statements (Nat.le_refl _) (Nat.le_refl _)
        obtain ⟨_, -, arranged⟩ := sequences.uses
          ⟨List.suffix_rfl, Nat.lt_succ_self stream.tokens.length⟩ bodyRead
        exact arranged

end TokenStream

/-- Every operation, ternary and pipe of a program starts where its first operand does.  Every
assignment starts behind its target: where the target of its value starts if that is an
assignment as well, and else where its value does. -/
theorem composites_start_with_an_operand {limits : Limits} {source : String}
    {program : Statement} (read : parse limits source = .ok program) {expression : Expression}
    (holds : program.Holds expression) : expression.StartsWithOperand Span.Before :=
  (TokenStream.allArranged_of_program read expression holds).mono
    fun _ _ => TokenStream.before_of_follows

/-- The first of two assignments starts at its second target, and the other one at the sum. -/
theorem assignments_start_behind_their_targets :
    let sum := Expression.binary ⟨1, 11⟩ (.arithmetic .add) (.identifier ⟨1, 11⟩ "c")
      (.identifier ⟨1, 15⟩ "d")
    let inner := Expression.assign ⟨1, 11⟩ (.identifier ⟨1, 6⟩ "b") sum
    let outer := Expression.assign ⟨1, 6⟩ (.identifier ⟨1, 1⟩ "a") inner
    parse .standard "a IS b IS c + d;" = .ok (.compound ⟨1, 1⟩ [.expression outer]) ∧
      sum.StartsWithOperand Span.Before ∧ inner.StartsWithOperand Span.Before ∧
      outer.StartsWithOperand Span.Before := by
  intro sum inner outer
  have read : parse .standard "a IS b IS c + d;" =
      .ok (.compound ⟨1, 1⟩ [.expression outer]) := by
    rfl
  have isWhole : (Statement.compound ⟨1, 1⟩ [.expression outer]).IsPart (.expression outer) :=
    .part .whole (List.mem_singleton_self _)
  have holds (part : Expression) (isPart : outer.IsPart part) :
      (Statement.compound ⟨1, 1⟩ [.expression outer]).Holds part :=
    ⟨_, outer, isWhole, List.mem_singleton_self _, isPart⟩
  have isInner : outer.IsPart inner := .part .whole (by simp [outer, Expression.parts])
  have isSum : outer.IsPart sum := isInner.part (by simp [inner, Expression.parts])
  exact ⟨read, composites_start_with_an_operand read (holds sum isSum),
    composites_start_with_an_operand read (holds inner isInner),
    composites_start_with_an_operand read (holds outer .whole)⟩

end Plainspoken
