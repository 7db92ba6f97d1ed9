import Plainspoken.Proofs.Simulation

/-!
# The parts of trees

A program is made of statements, bodies that it declares included, and these hold
expressions, which are made of expressions in turn.
-/

namespace Plainspoken

namespace Expression

def parts : Expression → List Expression
  | .literal _ _ | .identifier _ _ => []
  | .unary _ _ operand | .noneTest _ operand => [operand]
  | .binary _ _ left right | .assign _ left right => [left, right]
  | .ternary _ condition yes no => condition :: yes :: no.toList
  | .pipe _ first success failure => first :: (success.toList ++ failure.toList)
  | .call _ _ arguments => arguments

/-- An expression that stands somewhere in another one, or is that one. -/
inductive IsPart (whole : Expression) : Expression → Prop where
  | whole : IsPart whole whole
  | part {expression part : Expression} (isPart : IsPart whole expression)
      (member : part ∈ expression.parts) : IsPart whole part

theorem IsPart.of_part {whole middle part : Expression} (member : middle ∈ whole.parts)
    (isPart : middle.IsPart part) : whole.IsPart part := by
  induction isPart with
  | whole => exact .part .whole member
  | part _ inner ih => exact .part ih inner

theorem IsPart.eq_or_of_part {whole part : Expression} (isPart : whole.IsPart part) :
    part = whole ∨ ∃ middle ∈ whole.parts, middle.IsPart part := by
  induction isPart with
  | whole => exact .inl rfl
  | part _ member ih =>
    obtain rfl | ⟨middle, middleMember, inside⟩ := ih
    · exact .inr ⟨_, member, .whole⟩
    · exact .inr ⟨middle, middleMember, inside.part member⟩

end Expression

namespace Statement

/-- A statement that a program is made of, bodies that it declares included. -/
inductive IsPart (program : Statement) : Statement → Prop where
  | whole : IsPart program program
  | part {statement part : Statement} (isPart : IsPart program statement)
      (member : part ∈ statement.parts) : IsPart program part

theorem IsPart.of_part {program statement part : Statement} (member : statement ∈ program.parts)
    (isPart : statement.IsPart part) : program.IsPart part := by
  induction isPart with
  | whole => exact .part .whole member
  | part _ inner ih => exact .part ih inner

theorem IsPart.eq_or_of_part {program part : Statement} (isPart : program.IsPart part) :
    part = program ∨ ∃ middle ∈ program.parts, middle.IsPart part := by
  induction isPart with
  | whole => exact .inl rfl
  | part _ member ih =>
    obtain rfl | ⟨middle, middleMember, inside⟩ := ih
    · exact .inr ⟨_, member, .whole⟩
    · exact .inr ⟨middle, middleMember, inside.part member⟩

/-- The expressions that stand in a statement itself and not in a part of it. -/
def expressions : Statement → List Expression
  | .expression content => [content]
  | .variable _ initial => initial.toList
  | .conditional _ condition _ _ | .loop _ condition _ => [condition]
  | .giveBack _ value => value.toList
  | .matching _ subject _ => [subject]
  | .function _ _ | .pattern _ _ | .compound _ _ | .skip _ | .stop _ | .empty _ => []

/-- The expression stands somewhere in the program. -/
def Holds (program : Statement) (expression : Expression) : Prop :=
  ∃ statement whole, program.IsPart statement ∧ whole ∈ statement.expressions ∧
    whole.IsPart expression

end Statement

end Plainspoken
