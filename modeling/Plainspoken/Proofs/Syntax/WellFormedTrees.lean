import Plainspoken.Proofs.Source.Passage
import Plainspoken.Proofs.Syntax.BrokenSources
import Plainspoken.Proofs.TreeParts

/-!
# Trees that the grammar builds

Evaluation relies on more than the type of trees says.  Declarations stand in sequences only,
the branches of a match are conditionals of which the last one always holds, pipes lead
somewhere, and names and texts keep to the limits of the source.

What concerns the form of trees follows from how the grammar builds them.  What concerns
names and texts holds of the tokens already, and trees are built from the lexemes of tokens.
-/

namespace Plainspoken

open List (Forall₂)

/-! ## Well-formed trees -/

/-- What may be the name of something.  The only words with a meaning of their own among the
names are those that the language binds by itself. -/
structure Limits.Allows (limits : Limits) (name : String) : Prop where
  nonempty : 0 < name.length
  bounded : name.length ≤ limits.maxIdentifier
  start : name.toList.head?.any Cursor.isWordStart = true
  unreserved : ReservedWord.ofSpelling? name = none ∨ name = pipeName ∨ name = subjectName

/-- An expression, its parts apart, is one that evaluation can rely on. -/
structure Expression.WellFormed (limits : Limits) (expression : Expression) : Prop where
  identifier : ∀ place name, expression = .identifier place name → limits.Allows name
  call : ∀ place name arguments, expression = .call place name arguments → limits.Allows name
  text : ∀ place content, expression = .literal place (.text content) →
    content.length ≤ limits.maxText
  pipe : ∀ place first success failure, expression = .pipe place first success failure →
    success.isSome = true ∨ failure.isSome = true

namespace Statement

def isDeclaration : Statement → Bool
  | .variable _ _ | .function _ _ | .pattern _ _ => true
  | _ => false

def declarators : Statement → List Declarator
  | .variable declarator _ => [declarator]
  | .function signature _ => signature.parameters
  | .pattern signature _ => [signature.parameter]
  | _ => []

def declaredNames : Statement → List String
  | .variable declarator _ => [declarator.name]
  | .function signature _ => signature.name :: signature.parameters.map Declarator.name
  | .pattern signature _ => [signature.name, signature.parameter.name]
  | _ => []

/-- A block of conditionals without an alternative, the last of which always holds. -/
def IsBranchBlock (block : Statement) : Prop :=
  ∃ place children, block = .compound place children ∧
    (∀ child ∈ children, ∃ place condition chosen,
      child = .conditional place condition chosen none) ∧
    ∃ place place' chosen,
      children.getLast? = some (.conditional place (.literal place' (.fact true)) chosen none)

/-- A statement, its parts apart, is one that evaluation can rely on.  Jumps out of a loop
have no value by their form already. -/
structure WellFormed (limits : Limits) (statement : Statement) : Prop where
  declarations : ∀ part ∈ statement.parts, part.isDeclaration = true →
    ∃ place children, statement = .compound place children
  types : ∀ declarator ∈ statement.declarators, declarator.type ∈ [.number, .text, .fact]
  names : ∀ name ∈ statement.declaredNames, limits.Allows name
  function : ∀ signature body, statement = .function signature body →
    signature.returns ∈ [.number, .text, .fact, .nothing] ∧
      (signature.parameters.map Declarator.name).Nodup
  pattern : ∀ signature body, statement = .pattern signature body → body.isEmpty = false →
    body.IsBranchBlock
  matching : ∀ place subject body, statement = .matching place subject body → body.IsBranchBlock

end Statement

/-! ## Names and texts of tokens -/

/-- The lexeme keeps to the limits of the source. -/
def Lexeme.Fits (limits : Limits) : Lexeme → Prop
  | .identifier name => limits.Allows name
  | .text content => content.length ≤ limits.maxText
  | _ => True

namespace Cursor

variable {limits : Limits} {cursor rest : Cursor} {found : Lexeme}

/-- A word that is read from its first character on begins with that character. -/
theorem head?_wordParts {character : Char} (isCurrent : cursor.current = some character)
    (isPart : isWordPart character = true) (budget : Nat) :
    (wordParts (budget + 1) cursor).1.head? = some character := by
  simp only [wordParts, isCurrent, isPart, if_true, List.head?_cons]

theorem fits_wordLexeme {word : String} (nonempty : 0 < word.length)
    (bounded : word.length ≤ limits.maxIdentifier)
    (start : word.toList.head?.any isWordStart = true) : (wordLexeme word).Fits limits := by
  unfold wordLexeme
  split
  · trivial
  · trivial
  · next isName =>
    refine ⟨nonempty, bounded, start, .inr ?_⟩
    unfold ReservedWord.ofSpelling? at isName
    split at isName
    · cases isName
    · split at isName
      · cases isName
      · split at isName
        · next bound => simpa using bound
        · simp at isName
  · next unreserved => exact ⟨nonempty, bounded, start, .inl unreserved⟩

private theorem fits_of_word (read : cursor.word limits = .ok (some (found, rest))) :
    found.Fits limits := by
  unfold Cursor.word at read
  split at read
  · next isOn =>
    obtain ⟨character, isCurrent, isStart⟩ := exists_current_of_isOnClass isOn
    have begins := head?_wordParts isCurrent (by simp [isWordPart, isStart]) limits.maxIdentifier
    dsimp only at read
    split at read
    · cases read
    · next bounded =>
      cases read
      refine fits_wordLexeme ?_ (by simpa using bounded) ?_
      · rw [String.length_ofList, List.length_pos_iff]
        intro isEmpty
        rw [isEmpty] at begins
        cases begins
      · rw [String.toList_ofList, begins]
        exact isStart
  · cases read

private theorem fits_of_delimitedBody {body : BodyKind}
    (read : cursor.delimitedBody limits body = .ok (some (found, rest))) :
    found.Fits limits := by
  unfold Cursor.delimitedBody at read
  split at read
  · obtain ⟨⟨characters, rest'⟩, -, read⟩ := except_bind_ok_iff.mp read
    dsimp only at read
    split at read
    · cases read
    · next bounded =>
      cases read
      cases body with
      | comment => trivial
      | text =>
          change (String.ofList characters).length ≤ limits.maxText
          rw [String.length_ofList]
          exact Nat.not_lt.mp bounded
  · cases read

private theorem fits_of_nextToken {token : Token}
    (read : cursor.nextToken limits = .ok (token, rest)) :
    token.lexeme.Fits limits := by
  obtain ⟨-, ⟨isEnd, -⟩ | ⟨isBreak, -⟩ | ⟨-, -, lexemeRead⟩⟩ := nextToken_cases read
  · rw [isEnd]
    trivial
  · rw [isBreak]
    trivial
  · generalize token.lexeme = found at lexemeRead
    cases lexeme_eq_ok_iff.mp lexemeRead with
    | word wordRead => exact fits_of_word wordRead
    | mark | number => trivial
    | text _ _ _ textRead => exact fits_of_delimitedBody textRead
    | comment _ _ _ _ commentRead => exact fits_of_delimitedBody commentRead

private theorem fits_of_tokenRun (budget : Nat) (cursor : Cursor) :
    ∀ token ∈ (cursor.tokenRun limits budget).tokens, token.lexeme.Fits limits := by
  induction budget generalizing cursor with
  | zero => exact List.forall_mem_nil _
  | succ budget ih =>
      unfold tokenRun
      split
      · exact List.forall_mem_nil _
      · next token rest read =>
        split
        · exact List.forall_mem_singleton.mpr (fits_of_nextToken read)
        · exact List.forall_mem_cons.mpr ⟨fits_of_nextToken read, ih rest⟩

end Cursor

/-! ## How trees are built -/

/-- A sequence of tokens beside itself, where something is known of every token. -/
def Rule.Pairing.ofKnown {known : Lexeme → Prop} (atEnd : known .endOfSource)
    (ending : StreamEnd) : Rule.Pairing known where
  leftEnding := ending
  rightEnding := ending
  Opposite left right := left = right ∧ ∀ token ∈ left, known token.lexeme
  Failed _ _ := True
  lexeme_eq := by
    rintro _ _ ⟨rfl, -⟩
    rfl
  isKnown := by
    rintro left _ ⟨-, each⟩
    cases left with
    | nil => cases ending <;> exact atEnd
    | cons token tokens => exact each token List.mem_cons_self
  advance := by
    rintro left _ ⟨rfl, each⟩
    have kept : ∀ token ∈ left.tail, known token.lexeme :=
      fun token member => each token (List.mem_of_mem_tail member)
    unfold Rule.advance
    split
    · exact .error trivial
    · exact .ok ⟨rfl, kept⟩
  fail _ _ := trivial

/-- A program is built from lexemes of which what is known of all tokens is known. -/
theorem TokenStream.counterpart_of_program {known : Lexeme → Prop} {stream : TokenStream}
    {program : Statement} (atEnd : known .endOfSource)
    (each : ∀ token ∈ stream.tokens, known token.lexeme) (read : stream.program = .ok program) :
    program.Counterpart known .statement program := by
  obtain ⟨_, -, -, failed⟩ | ⟨-, isRead⟩ := stream.program_cases
  · rw [failed] at read
    cases read
  · have reads : (Rule.Pairing.ofKnown atEnd stream.ending).Reads
        (Statement.Counterpart known .statement) (Grammar.program (stream.tokens.length + 1))
        (Grammar.program (stream.tokens.length + 1)) := Grammar.program_reads _
    have outcome : Abreast _ _
        (Grammar.program (stream.tokens.length + 1) stream.ending stream.tokens)
        (Grammar.program (stream.tokens.length + 1) stream.ending stream.tokens) :=
      reads ⟨rfl, each⟩
    rw [isRead] at read
    generalize Grammar.program (stream.tokens.length + 1) stream.ending stream.tokens = result
      at outcome read
    cases result with
    | error failure => cases read
    | ok result =>
        cases read
        cases outcome with
        | ok both => exact both.1

theorem exists_mem_zip {α β : Type} {left : List α} {right : List β} {part : α}
    (same : left.length = right.length) (member : part ∈ left) :
    ∃ part', (part, part') ∈ left.zip right := by
  have firsts : (left.zip right).map Prod.fst = left := List.map_fst_zip same.le
  rw [← firsts] at member
  obtain ⟨⟨_, part'⟩, paired, rfl⟩ := List.mem_map.mp member
  exact ⟨part', paired⟩

theorem exists_mem_of_isSome {α β : Type} {left : Option α} {right : Option β} {part : α}
    (same : left.isSome = right.isSome) (member : part ∈ left) : ∃ part', part' ∈ right := by
  cases member
  exact Option.isSome_iff_exists.mp same.symm

/-! ## Parts of what is built -/

variable {known : Lexeme → Prop} {limits : Limits}

/-- The parts of an expression are built like the expression. -/
theorem Expression.Counterpart.exists_of_mem_parts {left right part : Expression}
    (counterpart : left.Counterpart known right) (member : part ∈ left.parts) :
    ∃ part', part.Counterpart known part' := by
  cases counterpart with
  | literal | identifier => cases member
  | unary operands | noneTest operands =>
      cases List.mem_singleton.mp member
      exact ⟨_, operands⟩
  | binary lefts rights | assign lefts _ rights =>
      rcases List.mem_pair.mp member with rfl | rfl
      · exact ⟨_, lefts⟩
      · exact ⟨_, rights⟩
  | ternary conditions yeses sameNo noes =>
      rcases List.mem_cons.mp member with rfl | member
      · exact ⟨_, conditions⟩
      rcases List.mem_cons.mp member with rfl | member
      · exact ⟨_, yeses⟩
      have isNo := Option.mem_toList.mp member
      obtain ⟨no', isNo'⟩ := exists_mem_of_isSome sameNo isNo
      exact ⟨no', noes _ isNo no' isNo'⟩
  | pipe firsts sameSuccess successes sameFailure failures _ =>
      rcases List.mem_cons.mp member with rfl | member
      · exact ⟨_, firsts⟩
      rcases List.mem_append.mp member with member | member
      · have isSuccess := Option.mem_toList.mp member
        obtain ⟨success', isSuccess'⟩ := exists_mem_of_isSome sameSuccess isSuccess
        exact ⟨success', successes _ isSuccess success' isSuccess'⟩
      · have isFailure := Option.mem_toList.mp member
        obtain ⟨failure', isFailure'⟩ := exists_mem_of_isSome sameFailure isFailure
        exact ⟨failure', failures _ isFailure failure' isFailure'⟩
  | call _ sameLength each =>
      obtain ⟨argument', paired⟩ := exists_mem_zip sameLength member
      exact ⟨argument', each _ argument' paired⟩

private theorem Expression.Counterpart.exists_of_isPart {left right part : Expression}
    (counterpart : left.Counterpart known right) (isPart : left.IsPart part) :
    ∃ part', part.Counterpart known part' := by
  induction isPart with
  | whole => exact ⟨right, counterpart⟩
  | part _ member ih =>
      obtain ⟨_, between⟩ := ih
      exact between.exists_of_mem_parts member

namespace Statement.Counterpart

variable {role : Role} {left right part : Statement}

/-- The parts of a statement are built like statements, each in a role of its own.  The
condition of the last branch of a match is no lexeme of the source. -/
theorem exists_of_mem_parts (truth : known (.fact true))
    (counterpart : left.Counterpart known role right)
    (member : part ∈ left.parts) : ∃ role' part', part.Counterpart known role' part' := by
  induction counterpart with
  | expression | skip | stop | giveBack | empty | binding => cases member
  | compound sameLength each =>
      obtain ⟨child', paired⟩ := exists_mem_zip sameLength member
      exact ⟨.member, child', each _ child' paired⟩
  | conditional _ positives sameNegative negatives =>
      rcases List.mem_cons.mp member with rfl | member
      · exact ⟨_, _, positives⟩
      have isNegative := Option.mem_toList.mp member
      obtain ⟨negative', isNegative'⟩ := exists_mem_of_isSome sameNegative isNegative
      exact ⟨_, negative', negatives _ isNegative negative' isNegative'⟩
  | loop _ bodies | matching _ bodies | function _ bodies | pattern _ bodies =>
      cases List.mem_singleton.mp member
      exact ⟨_, _, bodies⟩
  | forwardPattern =>
      cases List.mem_singleton.mp member
      exact ⟨.statement, .empty .beforeSource, .empty⟩
  | member _ ih => exact ih member
  | branch _ chosens =>
      cases List.mem_singleton.mp member
      exact ⟨_, _, chosens⟩
  | block sameLength each chosens =>
      rcases List.mem_append.mp member with member | member
      · obtain ⟨branch', paired⟩ := exists_mem_zip sameLength member
        exact ⟨.branch, branch', each _ branch' paired⟩
      · cases List.mem_singleton.mp member
        exact ⟨.branch, .conditional .beforeSource (.literal .beforeSource (.fact true)) _ none,
          .branch (.literal truth) chosens⟩

private theorem exists_of_isPart (truth : known (.fact true))
    (counterpart : left.Counterpart known role right)
    (isPart : left.IsPart part) : ∃ role' part', part.Counterpart known role' part' := by
  induction isPart with
  | whole => exact ⟨role, right, counterpart⟩
  | part _ member ih =>
      obtain ⟨_, _, between⟩ := ih
      exact between.exists_of_mem_parts truth member

/-- The expressions of a statement are built like expressions. -/
theorem exists_of_mem_expressions (counterpart : left.Counterpart known role right)
    {whole : Expression}
    (member : whole ∈ left.expressions) : ∃ whole', whole.Counterpart known whole' := by
  induction counterpart with
  | compound | skip | stop | empty | function | pattern | forwardPattern | block => cases member
  | expression contents =>
      cases List.mem_singleton.mp member
      exact ⟨_, contents⟩
  | conditional conditions | loop conditions | matching conditions | branch conditions =>
      cases List.mem_singleton.mp member
      exact ⟨_, conditions⟩
  | giveBack values | binding _ values =>
      cases values with
      | none => cases member
      | some values =>
          cases List.mem_singleton.mp member
          exact ⟨_, values⟩
  | member _ ih => exact ih member

/-- Only members of a sequence are declarations. -/
theorem isDeclaration_eq_false (counterpart : left.Counterpart known role right)
    (alone : role ≠ .member) : left.isDeclaration = false := by
  cases counterpart with
  | member | binding | function | pattern | forwardPattern => exact absurd rfl alone
  | _ => rfl

theorem isBranchBlock (counterpart : left.Counterpart known .block right) :
    left.IsBranchBlock := by
  cases counterpart with
  | @block place _ defaultPlace _ branches _ chosen _ sameLength each chosens =>
      refine ⟨place, _, rfl, ?_, defaultPlace, defaultPlace, chosen, by simp⟩
      intro child member
      rcases List.mem_append.mp member with member | member
      · obtain ⟨branch', paired⟩ := exists_mem_zip sameLength member
        cases each _ branch' paired with
        | branch => exact ⟨_, _, _, rfl⟩
      · exact ⟨_, _, _, List.mem_singleton.mp member⟩

end Statement.Counterpart

/-! ## Well-formedness of what is built -/

theorem Expression.Counterpart.wellFormed {left right : Expression}
    (counterpart : left.Counterpart (Lexeme.Fits limits) right) : left.WellFormed limits := by
  cases counterpart with
  | literal isKnown =>
      refine ⟨nofun, nofun, ?_, nofun⟩
      rintro place content ⟨⟩
      exact isKnown
  | identifier isKnown =>
      refine ⟨?_, nofun, nofun, nofun⟩
      rintro place name ⟨⟩
      exact isKnown
  | call isKnown =>
      refine ⟨nofun, ?_, nofun, nofun⟩
      rintro place name arguments ⟨⟩
      exact isKnown
  | pipe _ _ _ _ _ nonempty =>
      refine ⟨nofun, nofun, nofun, ?_⟩
      rintro place first success failure ⟨⟩
      exact nonempty
  | _ => exact ⟨nofun, nofun, nofun, nofun⟩

theorem ValueType.mem_of_isDeclared {type : ValueType} (declared : type.isDeclared = true) :
    type ∈ [.number, .text, .fact] := by
  cases type <;> simp_all [isDeclared]

theorem FunctionSignature.Counterpart.each {left right : FunctionSignature}
    (counterpart : left.Counterpart known right) :
    ∀ parameter ∈ left.parameters, parameter.type ∈ [.number, .text, .fact] ∧
      known (.identifier parameter.name) := by
  intro parameter member
  obtain ⟨sameLength, paired⟩ := List.forall₂_iff_zip.mp counterpart.parameters
  obtain ⟨parameter', isPaired⟩ := exists_mem_zip sameLength member
  have declarators := paired isPaired
  exact ⟨ValueType.mem_of_isDeclared declarators.declared, declarators.isKnown⟩

theorem PatternSignature.Counterpart.wellFormed {left right : PatternSignature} {body : Statement}
    (counterpart : left.Counterpart (Lexeme.Fits limits) right)
    (plain : body.isDeclaration = false) (block : body.isEmpty = false → body.IsBranchBlock) :
    (Statement.pattern left body).WellFormed limits := by
  refine ⟨?_, List.forall_mem_singleton.mpr
    (ValueType.mem_of_isDeclared counterpart.parameter.declared), ?_, nofun, ?_, nofun⟩
  · refine List.forall_mem_singleton.mpr fun declares => ?_
    rw [plain] at declares
    cases declares
  · exact List.forall_mem_cons.mpr ⟨counterpart.isKnown,
      List.forall_mem_singleton.mpr counterpart.parameter.isKnown⟩
  · rintro signature body ⟨⟩
    exact block

theorem Statement.Counterpart.wellFormed {role : Statement.Role} {left right : Statement}
    (counterpart : left.Counterpart (Lexeme.Fits limits) role right) : left.WellFormed limits := by
  -- a part that is not a member of a sequence declares nothing
  have apart {role' : Statement.Role} {statement part part' : Statement}
      (counterparts : part.Counterpart (Lexeme.Fits limits) role' part') (alone : role' ≠ .member) :
      part.isDeclaration = true → ∃ place children, statement = .compound place children := by
    intro declares
    rw [counterparts.isDeclaration_eq_false alone] at declares
    cases declares
  induction counterpart with
  | member _ ih => exact ih
  | expression | skip | stop | giveBack | empty =>
      exact ⟨nofun, nofun, nofun, nofun, nofun, nofun⟩
  | compound | block => exact ⟨fun _ _ _ => ⟨_, _, rfl⟩, nofun, nofun, nofun, nofun, nofun⟩
  | conditional _ positives sameNegative negatives =>
      refine ⟨List.forall_mem_cons.mpr ⟨apart positives nofun, ?_⟩,
        nofun, nofun, nofun, nofun, nofun⟩
      intro part member
      have isNegative := Option.mem_toList.mp member
      obtain ⟨negative', isNegative'⟩ := exists_mem_of_isSome sameNegative isNegative
      exact apart (negatives part isNegative negative' isNegative') nofun
  | loop _ bodies | branch _ bodies =>
      exact ⟨List.forall_mem_singleton.mpr (apart bodies nofun), nofun, nofun, nofun, nofun, nofun⟩
  | matching _ bodies =>
      refine ⟨List.forall_mem_singleton.mpr (apart bodies nofun), nofun, nofun, nofun, nofun, ?_⟩
      rintro place subject body ⟨⟩
      exact bodies.isBranchBlock
  | binding declarators =>
      have named := ValueType.mem_of_isDeclared declarators.declared
      exact ⟨nofun, List.forall_mem_singleton.mpr named,
        List.forall_mem_singleton.mpr declarators.isKnown, nofun, nofun, nofun⟩
  | function signatures bodies =>
      refine ⟨List.forall_mem_singleton.mpr (apart bodies nofun),
        fun parameter member => (signatures.each parameter member).1,
        List.forall_mem_cons.mpr ⟨signatures.isKnown, ?_⟩, ?_, nofun, nofun⟩
      · intro name member
        obtain ⟨parameter, isParameter, rfl⟩ := List.mem_map.mp member
        exact (signatures.each parameter isParameter).2
      · rintro signature body ⟨⟩
        refine ⟨?_, signatures.distinct⟩
        rcases signatures.returned with declared | isNothing
        · have named := ValueType.mem_of_isDeclared declared
          simp only [List.mem_cons] at named ⊢
          tauto
        · simp [isNothing]
  | pattern signatures bodies =>
      exact signatures.wellFormed (bodies.isDeclaration_eq_false nofun)
        fun _ => bodies.isBranchBlock
  | forwardPattern signatures => exact signatures.wellFormed rfl nofun

/-- A program that is read from a source is not a declaration, and all of its statements and
expressions are such that evaluation can rely on them.  That only a statement that gives back has
a value is not among the requirements: the form of the tree leaves the others no place for it. -/
theorem programs_are_well_formed {limits : Limits} {source : String} {program : Statement}
    (read : parse limits source = .ok program) :
    program.isDeclaration = false ∧
      (∀ statement, program.IsPart statement → statement.WellFormed limits) ∧
      ∀ expression, program.Holds expression → expression.WellFormed limits := by
  have built : program.Counterpart (Lexeme.Fits limits) .statement program :=
    TokenStream.counterpart_of_program trivial (fun token member =>
      Cursor.fits_of_tokenRun _ _ token (TokenStream.kind_ne_endOfSource member).1) read
  refine ⟨built.isDeclaration_eq_false nofun, ?_, ?_⟩
  · intro statement isPart
    obtain ⟨role, _, counterpart⟩ := built.exists_of_isPart trivial isPart
    exact counterpart.wellFormed
  · rintro expression ⟨statement, whole, isPart, member, inside⟩
    obtain ⟨role, _, counterpart⟩ := built.exists_of_isPart trivial isPart
    obtain ⟨_, wholes⟩ := counterpart.exists_of_mem_expressions member
    obtain ⟨_, parts⟩ := wholes.exists_of_isPart inside
    exact parts.wellFormed

/-- A function with two parameters that leads a text through a pipe, and a pattern whose default
branch becomes a conditional. -/
theorem programs_are_well_formed_with_pattern :
    let source := "FUNCTION f WITH TEXT a, FACT b RETURNS TEXT RETURN a THEN a;
      PATTERN p WITH TEXT s BEGIN VALUE == s DO ;, DEFAULT ;, END"
    ∃ program, parse .standard source = .ok program ∧
      program.parts.map Statement.declaredNames = [["f", "a", "b"], ["p", "s"]] ∧
      program.isDeclaration = false ∧
      (∀ statement, program.IsPart statement → statement.WellFormed .standard) ∧
      ∀ expression, program.Holds expression → expression.WellFormed .standard := by
  intro source
  have names : (parse .standard source).toOption.map
      (fun program => program.parts.map Statement.declaredNames) =
        some [["f", "a", "b"], ["p", "s"]] := by
    decide +kernel
  cases read : parse .standard source with
  | error error =>
      rw [read] at names
      cases names
  | ok program =>
      rw [read] at names
      exact ⟨program, rfl, Option.some.inj names, programs_are_well_formed read⟩

end Plainspoken
