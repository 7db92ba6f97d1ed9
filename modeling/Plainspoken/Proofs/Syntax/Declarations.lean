import Plainspoken.Proofs.Syntax.Expressions

/-!
# Reading declarations

The rules for declarations recognise their forms, given that the rule for nested
statements does.  A statement may be followed by any token but `ELSE`, which it
could take for itself.

The parameters of a function are the one place where the grammar looks at more
than the kinds of tokens.  Every declarator contains just one identifier, its
name, so the names of the parameters are distinct exactly if no identifier occurs
twice among their tokens.
-/

namespace Plainspoken

namespace Syntax

open Form Rule

variable {span : Span} {bound fuel : Nat}

/-! ## Types and declarators -/

theorem valueType?_isSome (lexeme : Lexeme) :
    (Grammar.valueType? lexeme).isSome = true ↔ lexeme.kind ∈ typeStarts := by
  cases lexeme with
  | keyword word => cases word <;> decide
  | _ => simp [Grammar.valueType?, Lexeme.kind, typeStarts]

theorem valueType_recognizes :
    Recognizes span bound Grammar.valueType (.symbol .type) [] := by
  have selected : Recognizes span (bound + 1) Grammar.valueType
      (inOrder [oneOf (typeStarts.map .token)]) [] := by
    refine .select (fun token => Grammar.valueType? token.lexeme) (fun type => pure (some type))
      (fun tokens => ?_) (fun token => valueType?_isSome token.lexeme) (by decide)
      fun type => .pure ⟨type, rfl⟩
    unfold Grammar.valueType
    rw [bind_of_ok (current_eq tokens)]
    cases Grammar.valueType? (tokens.headD (endToken (.endOfSource span))).lexeme <;> rfl
  have alone := selected.congr derives_only_iff (by decide)
  exact .symbol (alone.weaken (Nat.le_succ bound) (List.Subset.refl []))

theorem derives_returnType_iff {tokens : List Token} :
    Derives (.either (inOrder [word .nothingWord]) (.symbol .type)) tokens ↔
      Derives (rule .returnType) tokens := by
  constructor
  · intro derived
    cases derived with
    | left derived => exact .right (.left (derives_only_iff.mp derived))
    | right derived => exact .left derived
  · intro derived
    simp only [rule, derives_oneOf_cons_iff, not_derives_never, or_false] at derived
    rcases derived with derived | derived
    · exact .right derived
    · exact .left (derives_only_iff.mpr derived)

theorem returnType_reads :
    Reads span bound Anything Grammar.returnType (.symbol .returnType) [] := by
  refine .symbol (.congr ?_ derives_returnType_iff)
  exact .branch (by decide) (.pure trivial) (.require valueType_recognizes) (by decide)

theorem declarator_recognizes :
    Recognizes span bound Grammar.declarator (.symbol .declarator) [] := by
  refine .symbol (.congr (.position fun place => .choose (by decide) ?_ ?_ (by decide))
    derives_leading_iff (by decide))
  · refine .demand valueType_recognizes (by decide) fail_not_ok fun type => ?_
    exact .bind .identifier .last fun _ _ => .pure ⟨_, rfl⟩
  · refine .congr (.bind valueType_recognizes (by decide) rfl fun type => ?_)
      derives_oneOf_only_iff.symm (by decide)
    exact .bind .identifier .last fun _ _ => .pure ⟨_, rfl⟩

/-! ## Parameters -/

theorem names_append (first second : List Token) :
    names (first ++ second) = names first ++ names second :=
  List.filterMap_append

private theorem names_cons_of_kind_ne {token : Token} (other : token.kind ≠ .identifier)
    (tokens : List Token) : names (token :: tokens) = names tokens := by
  obtain ⟨lexeme, place⟩ := token
  cases lexeme with
  | identifier name => exact absurd rfl other
  | _ => rfl

private theorem eq_keyword_of_kind {token : Token} {word : Keyword}
    (same : token.kind = .keyword word) :
    ∃ place, token = ⟨.keyword word, place⟩ := by
  obtain ⟨lexeme, place⟩ := token
  cases lexeme with
  | keyword other =>
      cases same
      exact ⟨place, rfl⟩
  | _ => cases same

private theorem eq_identifier_of_kind {token : Token} (same : token.kind = .identifier) :
    ∃ name place, token = ⟨.identifier name, place⟩ := by
  obtain ⟨lexeme, place⟩ := token
  cases lexeme with
  | identifier name => exact ⟨name, place, rfl⟩
  | _ => cases same

private theorem exists_type_of_derives {tokens : List Token}
    (derived : Derives (.symbol .type) tokens) :
    ∃ word place, tokens = [⟨.keyword word, place⟩] ∧
      (word = .numberWord ∨ word = .textWord ∨ word = .factWord) := by
  rw [derives_symbol_iff] at derived
  simp only [rule, derives_oneOf_cons_iff, not_derives_never, or_false] at derived
  rcases derived with derived | derived | derived
  all_goals
    obtain ⟨token, rfl, same⟩ := derives_token_iff.mp derived
    obtain ⟨place, rfl⟩ := eq_keyword_of_kind same
    exact ⟨_, place, rfl, by simp⟩

/-- The only identifier in a declarator is its name. -/
theorem names_of_declarator {used rest rest' : List Token} {result : Declarator}
    (derived : Derives (.symbol .declarator) used)
    (read : Grammar.declarator (.endOfSource span) (used ++ rest) = .ok (some result, rest')) :
    names used = [result.name] := by
  rw [derives_symbol_iff] at derived
  obtain ⟨lead, _, rfl, leadDerived, derived⟩ := derives_cons_iff.mp derived
  obtain ⟨type, _, rfl, typeDerived, derived⟩ := derives_cons_iff.mp derived
  obtain ⟨last, rfl, isIdentifier⟩ := derives_token_iff.mp (derives_only_iff.mp derived)
  obtain ⟨name, place, rfl⟩ := eq_identifier_of_kind isIdentifier
  obtain ⟨word, place', rfl, isType⟩ := exists_type_of_derives typeDerived
  -- All tokens of the declarator are known by now, so the rule can be evaluated.
  rcases derives_optional_iff.mp leadDerived with leadDerived | rfl
  · obtain ⟨leading, rfl, isMutable⟩ := derives_token_iff.mp (derives_only_iff.mp leadDerived)
    obtain ⟨place'', rfl⟩ := eq_keyword_of_kind isMutable
    rcases isType with rfl | rfl | rfl <;> cases read <;> rfl
  · rcases isType with rfl | rfl | rfl <;> cases read <;> rfl

def parameterList : Form :=
  listed (.symbol .declarator) (mark .comma)

theorem parametersFrom_sound {function : String} {budget : Nat} {known result : List Declarator}
    {tokens rest : List Token} (distinct : (known.map (·.name)).Nodup)
    (read : Grammar.parametersFrom function budget known (.endOfSource span) tokens =
      .ok (result, rest)) :
    ∃ used, tokens = used ++ rest ∧ Derives parameterList used ∧
      (known.map (·.name) ++ names used).Nodup := by
  -- The names that are known grow by one in every round and remain distinct.
  induction budget generalizing known tokens with
  | zero => exact absurd read fail_not_ok
  | succ budget ih =>
      obtain ⟨parameter, between, requireRead, continued⟩ := bind_ok_iff.mp read
      obtain ⟨found, between', declaratorRead, ended⟩ := bind_ok_iff.mp requireRead
      rcases (@declarator_recognizes span 0).sound declaratorRead with
        ⟨rfl, rfl⟩ | ⟨⟨value, rfl⟩, first, rfl, firstDerived⟩
      · exact absurd ended fail_not_ok
      obtain ⟨rfl, rfl⟩ := pure_ok_iff.mp ended
      have firstNames := names_of_declarator firstDerived declaratorRead
      by_cases repeated : known.any (·.name == value.name) = true
      · rw [if_pos repeated] at continued
        exact absurd continued fail_not_ok
      rw [if_neg repeated] at continued
      have fresh : ((known ++ [value]).map (·.name)).Nodup := by
        simpa [List.nodup_append, distinct] using repeated
      obtain ⟨accepted, between, acceptRead, further⟩ := bind_ok_iff.mp continued
      rcases (accept_ok_iff (by decide)).mp acceptRead with
        ⟨rfl, comma, isComma, rfl⟩ | ⟨rfl, _, rfl⟩
      · obtain ⟨others, rfl, othersDerived, othersDistinct⟩ := ih fresh further
        have separator : comma.kind ≠ .identifier := by
          rw [isComma]
          decide
        refine ⟨first ++ comma :: others, by simp, ?_, ?_⟩
        · exact derives_listed_iff.mpr ⟨first, comma :: others, rfl, firstDerived,
            .inr ⟨[comma], others, rfl, .token isComma, othersDerived⟩⟩
        · rw [names_append, firstNames, names_cons_of_kind_ne separator]
          simpa using othersDistinct
      · obtain ⟨_, rfl⟩ := pure_ok_iff.mp further
        refine ⟨first, rfl, ?_, ?_⟩
        · exact derives_listed_iff.mpr ⟨first, [], by simp, firstDerived, .inl rfl⟩
        · rw [firstNames]
          simpa using fresh

theorem parametersFrom_complete {function : String} {budget : Nat} {known : List Declarator}
    {used rest : List Token} (derived : Derives parameterList used)
    (distinct : (known.map (·.name) ++ names used).Nodup)
    (stops : nextKind rest ≠ .mark .comma) (enough : (used ++ rest).length < budget) :
    ∃ result, Grammar.parametersFrom function budget known (.endOfSource span) (used ++ rest) =
      .ok (result, rest) := by
  induction budget generalizing known used with
  | zero => omega
  | succ budget ih =>
      obtain ⟨first, others, rfl, firstDerived, list⟩ := derives_listed_iff.mp derived
      rw [List.append_assoc] at enough ⊢
      obtain ⟨_, ⟨value, rfl⟩, declaratorRead⟩ :=
        (@declarator_recognizes span _).complete firstDerived (List.not_mem_nil) enough
      have firstNames := names_of_declarator firstDerived declaratorRead
      have requireRead : require .declarator Grammar.declarator (.endOfSource span)
          (first ++ (others ++ rest)) = .ok (value, others ++ rest) := bind_of_ok declaratorRead
      rw [names_append, firstNames] at distinct
      have fresh : ¬ known.any (·.name == value.name) = true := by
        intro repeated
        obtain ⟨other, isKnown, same⟩ := List.any_eq_true.mp repeated
        have different := (List.nodup_append.mp distinct).2.2
        exact different _ (List.mem_map_of_mem isKnown) _ List.mem_cons_self (eq_of_beq same)
      rw [Grammar.parametersFrom, bind_of_ok requireRead, if_neg fresh]
      rcases list with rfl | ⟨_, list, rfl, separator, listDerived⟩
      · exact ⟨_, bind_of_ok (accept_of_ne stops)⟩
      · obtain ⟨comma, rfl, isComma⟩ := derives_token_iff.mp separator
        have separates : comma.kind ≠ .identifier := by
          rw [isComma]
          decide
        have same : names ([comma] ++ list) = names list := names_cons_of_kind_ne separates list
        rw [same] at distinct
        have distinct' : ((known ++ [value]).map (·.name) ++ names list).Nodup := by
          simpa using distinct
        have positive := List.length_pos_iff.mpr (firstDerived.nonempty (by decide))
        have enough' : (list ++ rest).length < budget := by
          simp only [List.length_append, List.length_cons, List.length_nil] at enough ⊢
          omega
        obtain ⟨result, read⟩ := ih listDerived distinct' enough'
        exact ⟨result, (bind_of_ok (accept_cons isComma)).trans read⟩

theorem parametersFrom_reads {function : String} (enough : bound ≤ fuel) :
    Reads span bound Anything (Grammar.parametersFrom function fuel [])
      (.checked namesDistinct parameterList) [.mark .comma] where
  complete {used rest} derived stops short := by
    cases derived with
    | checked derived passed =>
        have stopped : nextKind rest ≠ .mark .comma := fun same =>
          stops (List.mem_singleton.mpr same)
        have distinct : (([] : List Declarator).map (·.name) ++ names used).Nodup :=
          of_decide_eq_true passed
        obtain ⟨result, read⟩ :=
          parametersFrom_complete derived distinct stopped (Nat.lt_of_lt_of_le short enough)
        exact ⟨result, trivial, read⟩
  sound read := by
    have empty : (([] : List Declarator).map (·.name)).Nodup := List.nodup_nil
    obtain ⟨used, split, derived, distinct⟩ := parametersFrom_sound empty read
    exact ⟨trivial, used, split, .checked derived (decide_eq_true distinct)⟩

theorem parameters_reads {function : String} (enough : bound ≤ fuel) :
    Reads span bound Anything (Grammar.parameters fuel function)
      (optional [word .withWord, .checked namesDistinct parameterList])
      [.mark .comma, .keyword .withWord] := by
  refine Reads.branch (by decide) (.only ?_) (.pure trivial) (by decide)
  exact (parametersFrom_reads enough).weaken (by decide)

/-! ## Declarations -/

theorem requiredExpression_reads (enough : bound ≤ fuel) :
    Reads span bound Anything (Grammar.requiredExpression fuel) (.symbol .expression)
      expressionStop :=
  .require ((expression_recognizes span fuel).weaken enough (List.Subset.refl _))

theorem variableDeclaration_recognizes (enough : bound ≤ fuel) :
    Recognizes span bound (Grammar.variableDeclaration fuel) (.symbol .variableDeclaration)
      expressionStop := by
  refine .symbol (.bind declarator_recognizes (by decide) rfl fun declarator => ?_)
  refine .only (.branch (by decide) ?_ (.pure ⟨_, rfl⟩) (by decide))
  exact .bind (requiredExpression_reads enough) (by decide) fun _ _ => .pure ⟨_, rfl⟩

theorem variableStatement_recognizes (enough : bound ≤ fuel) :
    Recognizes span bound (Grammar.variableStatement fuel)
      (inOrder [.symbol .variableDeclaration, mark .semicolon]) [] :=
  .bind (variableDeclaration_recognizes enough) (by decide) rfl fun _ =>
    .bind (.expect (by decide)) (by decide) fun _ _ => .pure ⟨_, rfl⟩

section Nested

variable {nested : Grammar.StatementRule}
  (recognizes : Recognizes span bound nested (.symbol .statement) [.keyword .elseWord])
  (enough : bound ≤ fuel)

include recognizes enough in
theorem functionDeclaration_recognizes :
    Recognizes span (bound + 1) (Grammar.functionDeclaration fuel nested) (.symbol .function)
      [.keyword .elseWord] := by
  refine .symbol (.position fun place => .accept (by decide) rfl ?_)
  refine .bind (.accept (by decide)) (by decide) fun overrides _ => ?_
  refine .bind .identifier (by decide) fun name _ => ?_
  refine .bind (parameters_reads enough) (by decide) fun parameters _ => ?_
  refine .bind (.expect (by decide)) (by decide) fun _ _ => ?_
  refine .bind returnType_reads (by decide) fun returns _ => ?_
  exact .bind (.require recognizes) (by decide) fun _ _ => .pure ⟨_, rfl⟩

include recognizes enough in
theorem matchBranch_recognizes :
    Recognizes span bound (Grammar.matchBranch fuel nested) (.symbol .matchBranch) [] := by
  have condition := (expression_recognizes span fuel).weaken enough (List.Subset.refl _)
  refine .symbol (.position fun place => .bind condition (by decide) rfl fun _ => ?_)
  refine .bind (.expect (by decide)) (by decide) fun _ _ => ?_
  refine .bind (.require recognizes) (by decide) fun _ _ => ?_
  exact .bind (.expect (by decide)) (by decide) fun _ _ => .pure ⟨_, rfl⟩

include recognizes enough in
theorem matchBlock_recognizes :
    Recognizes span (bound + 1) (Grammar.matchBlock fuel nested) (.symbol .matchBlock) [] := by
  have branches := Reads.many (matchBranch_recognizes recognizes enough) (by decide)
    (by decide) enough
  refine .symbol (.accept (by decide) rfl (.position fun place => ?_))
  refine .bind branches (by decide) fun _ _ => ?_
  refine .bind (.expect (by decide)) (by decide) fun _ _ => .position fun defaultPlace => ?_
  refine .bind (.require recognizes) (by decide) fun _ _ => ?_
  refine .bind (.expect (by decide)) (by decide) fun _ _ => ?_
  exact .bind (.expect (by decide)) (by decide) fun _ _ => .pure ⟨_, rfl⟩

include recognizes enough in
theorem patternDeclaration_recognizes :
    Recognizes span (bound + 1) (Grammar.patternDeclaration fuel nested) (.symbol .pattern)
      [] := by
  have block := (matchBlock_recognizes recognizes enough).weaken (Nat.le_succ bound)
    (List.Subset.refl _)
  refine .symbol (.position fun place => .accept (by decide) rfl ?_)
  refine .bind (.accept (by decide)) (by decide) fun overrides _ => ?_
  refine .bind .identifier (by decide) fun name _ => ?_
  refine .bind (.expect (by decide)) (by decide) fun _ _ => ?_
  refine .bind (.require declarator_recognizes) (by decide) fun parameter _ => .only ?_
  refine .attempt block (fun _ => .pure ⟨_, rfl⟩) ?_ (by decide) (by decide)
  refine .congr (.position fun endPlace => ?_)
    (derives_only_iff.trans derives_oneOf_only_iff.symm)
  exact .bind (.expect (by decide)) .last fun _ _ => .pure ⟨_, rfl⟩

include recognizes enough in
theorem declaration_recognizes :
    Recognizes span bound (Grammar.declaration fuel nested) (.symbol .declaration)
      [.keyword .elseWord] := by
  have pattern := (patternDeclaration_recognizes recognizes enough).weaken (Nat.le_succ bound)
    (List.nil_subset [.keyword .elseWord])
  have function := (functionDeclaration_recognizes recognizes enough).weaken (Nat.le_succ bound)
    (List.Subset.refl _)
  have plain := (@variableStatement_recognizes span _ _ enough).weaken (Nat.le_refl bound)
    (List.nil_subset [.keyword .elseWord])
  refine .symbol (.firstApplicable plain ?_ (by decide) (by decide))
  refine .firstApplicable function ?_ (by decide) (by decide)
  exact .firstApplicable pattern .none (by decide) (by decide)

end Nested

end Syntax

end Plainspoken
