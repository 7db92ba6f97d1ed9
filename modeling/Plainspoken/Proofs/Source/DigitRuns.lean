import Mathlib.Data.Nat.Digits.Lemmas
import Plainspoken.Proofs.Source.BodyDecoding
import Plainspoken.Proofs.Source.Parallel

/-!
# Runs of digits

The digits behind the letter of a base, and those behind a decimal point, denote a natural
number of any size.  They are read one by one, and every step checks that 64 bits still hold
the number so far.  A prefix does not denote a larger number than the whole, so these checks
amount to one check of the whole: what is read is exactly the number that the digits denote, if
64 bits hold it, and an overflow if not.

Separators may stand behind any character of a literal.  They are passed together with the
character before them, so nothing that is read depends on them.
-/

namespace Plainspoken

/-- A character denotes a digit of a base: the usual one, in either case. -/
def IsDigit (radix digit : Nat) (character : Char) : Prop :=
  digit < radix ∧ (character = digit.digitChar ∨ character = digit.digitChar.toUpper)

instance (radix digit : Nat) : DecidablePred (IsDigit radix digit) :=
  fun character => inferInstanceAs (Decidable (digit < radix ∧
    (character = digit.digitChar ∨ character = digit.digitChar.toUpper)))

/-- The number that digits denote, the most significant first. -/
def numeral (radix : Nat) (digits : List Nat) : Nat :=
  Nat.ofDigits radix digits.reverse

/-- Characters written out with separators behind any of them. -/
inductive Spreads : List Char → List Char → Prop where
  | nil : Spreads [] []
  | cons {character : Char} {characters text : List Char} (gaps : List Char) :
      (∀ gap ∈ gaps, Cursor.isDigitSeparator gap = true) → Spreads characters text →
      Spreads (character :: characters) (character :: gaps ++ text)

/-- No prefix of digits that is read and converted to a double passes the limit. -/
def Within (limits : Limits) (converted : List Nat → Float) (digits : List Nat) : Prop :=
  ∀ shown, shown <+: digits → shown ≠ [] → ¬ converted shown > limits.maxNumber

namespace Within

variable {limits : Limits} {converted : List Nat → Float} {earlier digits : List Nat} {digit : Nat}

theorem first
    (within : Within limits (fun shown => converted (earlier ++ shown)) (digit :: digits)) :
    ¬ converted (earlier ++ [digit]) > limits.maxNumber :=
  within [digit] (List.prefix_append [digit] digits) (List.cons_ne_nil digit [])

theorem behind
    (within : Within limits (fun shown => converted (earlier ++ shown)) (digit :: digits)) :
    Within limits (fun shown => converted (earlier ++ [digit] ++ shown)) digits := by
  intro shown isPrefix _
  dsimp only
  rw [List.append_assoc, List.singleton_append]
  exact within (digit :: shown) (List.cons_prefix_cons.mpr ⟨rfl, isPrefix⟩)
    (List.cons_ne_nil digit shown)

end Within

theorem IsDigit.isDigit {digit : Nat} {character : Char} (isDigit : IsDigit 10 digit character) :
    character.isDigit = true := by
  have all : ∀ digit < 10, digit.digitChar.isDigit = true ∧
      digit.digitChar.toUpper.isDigit = true := by
    decide
  obtain ⟨bound, rfl | rfl⟩ := isDigit
  · exact (all digit bound).1
  · exact (all digit bound).2

theorem numeral_concat (radix : Nat) (earlier : List Nat) (digit : Nat) :
    numeral radix (earlier ++ [digit]) = numeral radix earlier * radix + digit := by
  rw [numeral, List.reverse_append, List.reverse_singleton, List.singleton_append,
    Nat.ofDigits_cons, numeral, Nat.add_comm, Nat.mul_comm]

namespace Spreads

variable {character : Char} {characters others text : List Char}

theorem refl (characters : List Char) : Spreads characters characters := by
  induction characters with
  | nil => exact .nil
  | cons character characters ih => exact .cons [] (List.forall_mem_nil _) ih

theorem uncons (spreads : Spreads (character :: characters) text) :
    ∃ gaps behind, text = character :: gaps ++ behind ∧
      (∀ gap ∈ gaps, Cursor.isDigitSeparator gap = true) ∧ Spreads characters behind := by
  cases spreads with
  | cons gaps separate spreads => exact ⟨gaps, _, rfl, separate, spreads⟩

theorem divide (spreads : Spreads (characters ++ others) text) :
    ∃ before behind, text = before ++ behind ∧ Spreads characters before ∧
      Spreads others behind := by
  induction characters generalizing text with
  | nil => exact ⟨[], text, rfl, .nil, spreads⟩
  | cons character characters ih =>
      obtain ⟨gaps, behind, rfl, separate, spreads⟩ := spreads.uncons
      obtain ⟨before, behind, rfl, first, second⟩ := ih spreads
      exact ⟨character :: gaps ++ before, behind, by simp, .cons gaps separate first, second⟩

/-- What is written out begins like the characters, or with what follows them. -/
theorem head?_append (spreads : Spreads characters text) (rest : List Char) :
    (text ++ rest).head? = (characters ++ rest).head? := by
  cases spreads <;> rfl

end Spreads

namespace Cursor

variable {limits : Limits} {cursor : Cursor} {radix : Nat} {character : Char}
  {characters text rest : List Char}

/-- A reader fails because a number is too large, at a place that it has passed to. -/
def Overflows {α : Type} (cursor : Cursor) (result : Except LexicalError α) : Prop :=
  ∃ taken failing, cursor.Passes taken failing ∧
    result = .error (failing.failure .numberOverflow)

theorem Overflows.after {α : Type} {between : Cursor} {passed : List Char}
    {result : Except LexicalError α} (passes : cursor.Passes passed between)
    (overflows : between.Overflows result) : cursor.Overflows result := by
  obtain ⟨taken, failing, passesOthers, isError⟩ := overflows
  exact ⟨_, failing, passes.trans passesOthers, isError⟩

theorem Overflows.bind {α β : Type} {result : Except LexicalError α}
    (overflows : cursor.Overflows result) (next : α → Except LexicalError β) :
    cursor.Overflows (result >>= next) := by
  obtain ⟨taken, failing, passes, rfl⟩ := overflows
  exact ⟨taken, failing, passes, rfl⟩

theorem Overflows.map {α β : Type} {result : Except LexicalError α}
    (overflows : cursor.Overflows result) (function : α → β) :
    cursor.Overflows (function <$> result) := by
  obtain ⟨taken, failing, passes, rfl⟩ := overflows
  exact ⟨taken, failing, passes, rfl⟩

end Cursor

end Plainspoken
