import Plainspoken.Proofs.Syntax.Restoring

/-!
# Rules that probe

The grammar never goes back.  A rule that may not apply decides by the first token: where it
does not apply, it leaves all tokens, and where it does, it uses that token at least, unless
it fails.

Rules call and repeat each other within budgets.  Since every round and every level uses a
token, a budget makes no difference as long as it is larger than the number of tokens.  This
is shown together with the rest, of two rules that differ in their budgets only.

What a rule makes of the tokens that it uses is left open here.
-/

namespace Plainspoken

open List (Forall₂)

namespace Syntax

open Rule

/-! ## Rules as functions, wherever the tokens end -/

section Steps

variable {α β : Type} {ending : StreamEnd} {kind : TokenKind} {token : Token}
  {tokens others : List Token}

theorem kind_headD_endToken (ending : StreamEnd) (tokens : List Token) :
    (tokens.headD (endToken ending)).kind = nextKind tokens := by
  cases tokens with
  | nil => cases ending <;> rfl
  | cons token tokens => rfl

/-- Using a token leaves the others, or it fails whatever was to follow. -/
theorem advance_cases (ending : StreamEnd) (token : Token) (others : List Token) :
    advance ending (token :: others) = .ok ((), others) ∨
      ∃ failure, advance ending (token :: others) = .error failure := by
  cases ending with
  | endOfSource span => exact .inl rfl
  | broken error =>
      cases others with
      | nil => exact .inr ⟨_, rfl⟩
      | cons _ _ => exact .inl rfl

theorem bind_of_error {first : Rule α} {second : α → Rule β} {failure : BuildError}
    (failed : first ending tokens = .error failure) :
    (first >>= second) ending tokens = .error failure := by
  change andThen first second ending tokens = _
  simp only [andThen, failed]

/-- A token that does not stand there is not used. -/
theorem accept_of_other {next : Bool → Rule α} (other : nextKind tokens ≠ kind) :
    (accept kind >>= next) ending tokens = next false ending tokens := by
  have absent : ([kind].contains (tokens.headD (endToken ending)).kind) = false := by
    rw [kind_headD_endToken]
    simpa using other
  simp only [accept, acceptAny, current, bind, andThen, absent]
  rfl

/-- A token that stands there is used. -/
theorem accept_of_same {next : Bool → Rule α} (same : token.kind = kind) :
    (accept kind >>= next) ending (token :: others) =
      (advance >>= fun _ => next true) ending (token :: others) := by
  have present : ([kind].contains token.kind) = true := by simp [same]
  rcases advance_cases ending token others with used | ⟨failure, failed⟩
  · simp only [accept, acceptAny, current, bind, andThen, List.headD_cons, present, if_true, used]
    rfl
  · simp only [accept, acceptAny, current, bind, andThen, List.headD_cons, present, if_true,
      failed]

end Steps

/-! ## What is left of a sequence -/

/-- The tokens are the last ones of a sequence, and there are fewer of them than a bound. -/
structure Remain (whole : List Token) (bound : Nat) (tokens : List Token) : Prop where
  suffix : tokens <:+ whole
  short : tokens.length < bound

variable {α β : Type} {whole : List Token} {bound larger : Nat}

namespace Remain

variable {tokens used rest : List Token} {token : Token}

theorem weaken (remain : Remain whole bound tokens) (enough : bound ≤ larger) :
    Remain whole larger tokens :=
  ⟨remain.suffix, Nat.lt_of_lt_of_le remain.short enough⟩

theorem behind (remain : Remain whole bound (used ++ rest)) : Remain whole bound rest where
  suffix := (List.suffix_append used rest).trans remain.suffix
  short := by
    have short := remain.short
    rw [List.length_append] at short
    omega

theorem behindUsed {later : Nat} (remain : Remain whole bound (used ++ rest))
    (nonempty : used ≠ []) (shrinks : bound ≤ later + 1) : Remain whole later rest where
  suffix := remain.behind.suffix
  short := by
    have short := remain.short
    have := List.length_pos_iff.mpr nonempty
    rw [List.length_append] at short
    omega

theorem tail {later : Nat} (remain : Remain whole bound (token :: rest))
    (shrinks : bound ≤ later + 1) : Remain whole later rest :=
  @behindUsed whole bound [token] rest later remain (List.cons_ne_nil _ _) shrinks

/-- What is used of the tokens that are left is used of the whole. -/
theorem infix_of_used (remain : Remain whole bound (used ++ rest)) : used <:+: whole :=
  (List.prefix_append used rest).isInfix.trans remain.suffix.isInfix

end Remain

/-! ## Two kinds of rules -/

/-- Two rules do the same.  Where they succeed, they have used the first tokens and made
something good of them. -/
structure Consumes (whole : List Token) (bound : Nat) (good : List Token → α → Prop)
    (rule rule' : Rule α) : Prop where
  same {ending : StreamEnd} {tokens : List Token} (remain : Remain whole bound tokens) :
    rule ending tokens = rule' ending tokens
  uses {ending : StreamEnd} {tokens rest : List Token} {result : α}
    (remain : Remain whole bound tokens) (read : rule ending tokens = .ok (result, rest)) :
    ∃ used, tokens = used ++ rest ∧ good used result

/-- Two rules that may not apply do the same.  They do not apply, and leave all tokens, just
where a token of none of some kinds stands first.  Where they succeed otherwise, they have
used one token at least and made something good of what they used. -/
structure Probes (whole : List Token) (bound : Nat) (starts : List TokenKind)
    (good : List Token → α → Prop) (rule rule' : Rule (Option α)) : Prop where
  same {ending : StreamEnd} {tokens : List Token} (remain : Remain whole bound tokens) :
    rule ending tokens = rule' ending tokens
  declines {ending : StreamEnd} {tokens : List Token} (remain : Remain whole bound tokens)
    (other : nextKind tokens ∉ starts) : rule ending tokens = .ok (none, tokens)
  applies {ending : StreamEnd} {tokens rest : List Token} {result : Option α}
    (remain : Remain whole bound tokens) (starting : nextKind tokens ∈ starts)
    (read : rule ending tokens = .ok (result, rest)) :
    ∃ value used, result = some value ∧ used ≠ [] ∧ tokens = used ++ rest ∧ good used value

variable {starts starts' : List TokenKind} {kind : TokenKind} {good : List Token → α → Prop}
  {good' : List Token → β → Prop}

/-- What a rule that may not apply comes to. -/
theorem Probes.outcome {rule rule' : Rule (Option α)} {tokens : List Token}
    (probes : Probes whole bound starts good rule rule') (remain : Remain whole bound tokens)
    (ending : StreamEnd) :
    (∃ failure, rule ending tokens = .error failure) ∨
      (nextKind tokens ∉ starts ∧ rule ending tokens = .ok (none, tokens)) ∨
      ∃ value used rest, rule ending tokens = .ok (some value, rest) ∧ used ≠ [] ∧
        tokens = used ++ rest ∧ good used value := by
  by_cases starting : nextKind tokens ∈ starts
  · cases read : rule ending tokens with
    | error failure => exact .inl ⟨failure, rfl⟩
    | ok result =>
        obtain ⟨result, rest⟩ := result
        obtain ⟨value, used, rfl, nonempty, split, isGood⟩ :=
          probes.applies remain starting read
        exact .inr (.inr ⟨value, used, rest, rfl, nonempty, split, isGood⟩)
  · exact .inr (.inl ⟨starting, probes.declines remain starting⟩)

theorem Probes.weaken {rule rule' : Rule (Option α)}
    (probes : Probes whole larger starts good rule rule') (enough : bound ≤ larger) :
    Probes whole bound starts good rule rule' where
  same remain := probes.same (remain.weaken enough)
  declines remain := probes.declines (remain.weaken enough)
  applies remain := probes.applies (remain.weaken enough)

/-! ## Rules that have to apply -/

namespace Consumes

theorem zero {rule rule' : Rule α} : Consumes whole 0 good rule rule' where
  same remain := absurd remain.short (Nat.not_lt_zero _)
  uses remain := absurd remain.short (Nat.not_lt_zero _)

theorem weaken {rule rule' : Rule α} (consumes : Consumes whole larger good rule rule')
    (enough : bound ≤ larger) : Consumes whole bound good rule rule' where
  same remain := consumes.same (remain.weaken enough)
  uses remain read := consumes.uses (remain.weaken enough) read

theorem mono {weaker : List Token → α → Prop} {rule rule' : Rule α}
    (consumes : Consumes whole bound good rule rule')
    (implied : ∀ used result, good used result → weaker used result) :
    Consumes whole bound weaker rule rule' where
  same := consumes.same
  uses {_ _ _ result} remain read := by
    obtain ⟨used, split, isGood⟩ := consumes.uses remain read
    exact ⟨used, split, implied used result isGood⟩

theorem pure {result : α} (isGood : good [] result) :
    Consumes whole bound good (pure result) (pure result) where
  same _ := rfl
  uses _ read := by
    obtain ⟨rfl, rfl⟩ := pure_ok_iff.mp read
    exact ⟨[], rfl, isGood⟩

theorem fail {cause : GrammarCause} : Consumes whole bound good (fail cause) (fail cause) where
  same _ := rfl
  uses _ read := absurd read fail_not_ok

theorem bind {first first' : Rule α} {second second' : α → Rule β}
    (left : Consumes whole bound good first first')
    (right : ∀ used result, good used result → Consumes whole bound
      (fun used' => good' (used ++ used')) (second result) (second' result)) :
    Consumes whole bound good' (first >>= second) (first' >>= second') where
  same {ending tokens} remain := by
    change andThen first second ending tokens = andThen first' second' ending tokens
    unfold andThen
    rw [← left.same remain]
    cases read : first ending tokens with
    | error failure => rfl
    | ok result =>
        obtain ⟨used, rfl, isGood⟩ := left.uses remain read
        exact (right used result.1 isGood).same remain.behind
  uses remain read := by
    obtain ⟨middle, between, firstRead, continued⟩ := bind_ok_iff.mp read
    obtain ⟨used, rfl, isGood⟩ := left.uses remain firstRead
    obtain ⟨used', rfl, isGood'⟩ := (right used middle isGood).uses remain.behind continued
    exact ⟨used ++ used', (List.append_assoc _ _ _).symm, isGood'⟩

theorem position {next next' : Span → Rule α}
    (consumes : ∀ place, Consumes whole bound good (next place) (next' place)) :
    Consumes whole bound good (position >>= next) (position >>= next') where
  same remain := (consumes _).same remain
  uses remain read := by
    obtain ⟨place, between, positionRead, continued⟩ := bind_ok_iff.mp read
    cases positionRead
    exact (consumes _).uses remain continued

/-- A first token that is used, and what reads the others. -/
theorem behindFirst {token : Token} {next next' : Rule α}
    (consumes : Consumes whole bound good next next') {ending : StreamEnd} {others : List Token}
    (remain : Remain whole bound others) :
    (advance >>= fun _ => next) ending (token :: others) =
        (advance >>= fun _ => next') ending (token :: others) ∧
      ∀ {result rest},
        (advance >>= fun _ => next) ending (token :: others) = .ok (result, rest) →
        ∃ used, others = used ++ rest ∧ good used result := by
  rcases advance_cases ending token others with used | ⟨failure, failed⟩
  · rw [bind_of_ok used, bind_of_ok used]
    exact ⟨consumes.same remain, consumes.uses remain⟩
  · rw [bind_of_error failed, bind_of_error failed]
    exact ⟨rfl, nofun⟩

/-- Two ways to go on, depending on whether a token stands there. -/
theorem branch {next next' : Bool → Rule α} {later : Nat} (inside : kind ≠ .endOfSource)
    (shrinks : bound ≤ later + 1)
    (present : ∀ token, Consumes whole later (fun used => good (token :: used)) (next true)
      (next' true))
    (absent : Consumes whole bound good (next false) (next' false)) :
    Consumes whole bound good (accept kind >>= next) (accept kind >>= next') where
  same {ending tokens} remain := by
    by_cases stands : nextKind tokens = kind
    · cases tokens with
      | nil => exact absurd stands.symm inside
      | cons token others =>
          rw [accept_of_same stands, accept_of_same stands]
          exact ((present token).behindFirst (remain.tail shrinks)).1
    · rw [accept_of_other stands, accept_of_other stands]
      exact absent.same remain
  uses {ending tokens rest result} remain read := by
    by_cases stands : nextKind tokens = kind
    · cases tokens with
      | nil => exact absurd stands.symm inside
      | cons token others =>
          rw [accept_of_same stands] at read
          obtain ⟨used, rfl, isGood⟩ :=
            ((present token).behindFirst (remain.tail shrinks)).2 read
          exact ⟨token :: used, rfl, isGood⟩
    · rw [accept_of_other stands] at read
      exact absent.uses remain read

/-- A token that need not stand there. -/
theorem optional {valid : α → Prop} {next next' : Bool → Rule α} (inside : kind ≠ .endOfSource)
    (each : ∀ accepted, Consumes whole bound (fun _ => valid) (next accepted) (next' accepted)) :
    Consumes whole bound (fun _ => valid) (accept kind >>= next) (accept kind >>= next') :=
  .branch inside (Nat.le_succ bound) (fun _ => each true) (each false)

theorem expect (inside : kind ≠ .endOfSource) :
    Consumes whole bound (fun _ => Anything) (expect kind) (expect kind) :=
  .branch inside (Nat.le_succ bound) (fun _ => .pure trivial) .fail

theorem identifier : Consumes whole bound (fun _ => Anything) identifier identifier where
  same _ := rfl
  uses {ending tokens rest name} remain read := by
    cases tokens with
    | nil => cases ending <;> cases read
    | cons token others =>
        obtain ⟨lexeme, place⟩ := token
        cases lexeme with
        | identifier written =>
            have continues : Consumes whole bound (fun _ => Anything) (Pure.pure written)
                (Pure.pure written) := .pure trivial
            obtain ⟨used, rfl, -⟩ :=
              (continues.behindFirst (remain.tail (Nat.le_succ bound))).2 read
            exact ⟨_ :: used, rfl, trivial⟩
        | _ => cases read

/-- A rule that may not apply, and what follows it in either case.  What it uses where it
applies makes the tokens fewer. -/
theorem bindFound {first first' : Rule (Option α)} {second second' : Option α → Rule β}
    {later : Nat} (shrinks : bound ≤ later + 1)
    (left : Probes whole bound starts good first first')
    (absent : Consumes whole bound good' (second none) (second' none))
    (present : ∀ used value, good used value → Consumes whole later
      (fun used' => good' (used ++ used')) (second (some value)) (second' (some value))) :
    Consumes whole bound good' (first >>= second) (first' >>= second') where
  same {ending tokens} remain := by
    have same : first ending tokens = first' ending tokens := left.same remain
    obtain ⟨failure, failed⟩ | ⟨-, declined⟩ | ⟨value, used, rest, applied, nonempty, rfl, isGood⟩
      := left.outcome remain ending
    · rw [bind_of_error failed, bind_of_error (same.symm.trans failed)]
    · rw [bind_of_ok declined, bind_of_ok (same.symm.trans declined)]
      exact absent.same remain
    · rw [bind_of_ok applied, bind_of_ok (same.symm.trans applied)]
      exact (present used value isGood).same (remain.behindUsed nonempty shrinks)
  uses {ending tokens after result} remain read := by
    obtain ⟨failure, failed⟩ | ⟨-, declined⟩ | ⟨value, used, rest, applied, nonempty, rfl, isGood⟩
      := left.outcome remain ending
    · rw [bind_of_error failed] at read
      cases read
    · rw [bind_of_ok declined] at read
      exact absent.uses remain read
    · rw [bind_of_ok applied] at read
      obtain ⟨used', rfl, isGood'⟩ :=
        (present used value isGood).uses (remain.behindUsed nonempty shrinks) read
      exact ⟨used ++ used', (List.append_assoc _ _ _).symm, isGood'⟩

theorem require {rule rule' : Rule (Option α)} {symbol : Symbol}
    (probes : Probes whole bound starts good rule rule') :
    Consumes whole bound good (require symbol rule) (require symbol rule') :=
  .bindFound (Nat.le_succ bound) probes .fail fun used _ isGood =>
    .pure (by rwa [List.append_nil])

/-- A rule that is applied as often as it applies. -/
theorem many {rule rule' : Rule (Option α)} (each : Probes whole bound starts good rule rule')
    {rounds rounds' : Nat} (enough : bound ≤ rounds) (enough' : bound ≤ rounds') :
    Consumes whole bound (fun used results => ∃ pieces : List (List Token),
      used = pieces.flatten ∧ Forall₂ good pieces results)
      (many rounds rule) (many rounds' rule') := by
  induction bound generalizing rounds rounds' with
  | zero => exact .zero
  | succ bound ih =>
      obtain ⟨rounds, rfl⟩ := Nat.exists_eq_succ_of_ne_zero (Nat.ne_zero_of_lt enough)
      obtain ⟨rounds', rfl⟩ := Nat.exists_eq_succ_of_ne_zero (Nat.ne_zero_of_lt enough')
      have others := ih (each.weaken (Nat.le_succ bound)) (Nat.le_of_succ_le_succ enough)
        (Nat.le_of_succ_le_succ enough')
      refine .bindFound (Nat.le_refl _) each (.pure ⟨[], rfl, .nil⟩) fun used value isGood => ?_
      refine others.bind fun used' results => ?_
      rintro ⟨pieces, rfl, areGood⟩
      exact .pure ⟨used :: pieces, by simp, .cons isGood areGood⟩

/-- Repetition of a rule whose results are good whatever was used for them. -/
theorem manyEach {valid : α → Prop} {rule rule' : Rule (Option α)}
    (each : Probes whole bound starts (fun _ => valid) rule rule')
    {rounds rounds' : Nat} (enough : bound ≤ rounds) (enough' : bound ≤ rounds') :
    Consumes whole bound (fun _ results => ∀ result ∈ results, valid result)
      (Rule.many rounds rule) (Rule.many rounds' rule') := by
  refine (many each enough enough').mono fun used results => ?_
  rintro ⟨pieces, -, areGood⟩
  induction areGood with
  | nil => exact List.forall_mem_nil _
  | cons isGood _ ih => exact List.forall_mem_cons.mpr ⟨isGood, ih⟩

end Consumes

/-! ## Rules that may not apply -/

/-- What the two rules do with a first token that tells that they apply. -/
inductive Takes (whole : List Token) (bound : Nat) (good : List Token → α → Prop)
    (token : Token) : Rule (Option α) → Rule (Option α) → Prop where
  | advance {next next' : Rule (Option α)}
      (consumes : Consumes whole bound (fun used => Found (good (token :: used))) next next') :
      Takes whole bound good token (advance >>= fun _ => next) (advance >>= fun _ => next')

theorem Takes.reads {token : Token} {next next' : Rule (Option α)}
    (takes : Takes whole bound good token next next') {ending : StreamEnd} {others : List Token}
    (remain : Remain whole bound others) :
    next ending (token :: others) = next' ending (token :: others) ∧
      ∀ {result rest}, next ending (token :: others) = .ok (result, rest) →
        ∃ value used, result = some value ∧ others = used ++ rest ∧
          good (token :: used) value := by
  cases takes with
  | advance consumes =>
      refine ⟨(consumes.behindFirst remain).1, fun read => ?_⟩
      obtain ⟨used, split, value, found, isGood⟩ := (consumes.behindFirst remain).2 read
      exact ⟨value, used, found, split, isGood⟩

namespace Probes

/-- No rule of the kind applies. -/
theorem never : Probes whole bound [] good (pure none) (pure none) where
  same _ := rfl
  declines _ _ := rfl
  applies _ starting := absurd starting List.not_mem_nil

theorem anything {rule rule' : Rule (Option α)}
    (probes : Probes whole bound starts good rule rule') :
    Consumes whole bound (fun _ => Anything) rule rule' where
  same := probes.same
  uses {ending _ _ _} remain read := by
    obtain ⟨_, failed⟩ | ⟨-, declined⟩ | ⟨_, used, _, applied, -, split, -⟩ :=
      probes.outcome remain ending
    · cases failed.symm.trans read
    · cases declined.symm.trans read
      exact ⟨[], rfl, trivial⟩
    · cases applied.symm.trans read
      exact ⟨used, split, trivial⟩

theorem mono {weaker : List Token → α → Prop} {rule rule' : Rule (Option α)}
    (probes : Probes whole bound starts good rule rule')
    (implied : ∀ used value, used <:+: whole → good used value → weaker used value) :
    Probes whole bound starts weaker rule rule' where
  same := probes.same
  declines := probes.declines
  applies remain starting read := by
    obtain ⟨value, used, found, nonempty, rfl, isGood⟩ := probes.applies remain starting read
    exact ⟨value, used, found, nonempty, rfl, implied used value remain.infix_of_used isGood⟩

/-- The first token tells whether it is used.  Where it is not, another rule may apply. -/
theorem select (starts : List TokenKind) {next next' : Token → Rule (Option α)}
    (inside : .endOfSource ∉ starts)
    (present : ∀ token, token.kind ∈ starts →
      Takes whole bound good token (next token) (next' token))
    {other other' : Rule (Option α)}
    (absent : Probes whole (bound + 1) starts' good other other')
    (passes : ∀ token, token.kind ∉ starts → next token = other ∧ next' token = other') :
    Probes whole (bound + 1) (starts ++ starts') good (current >>= next) (current >>= next') := by
  have passed {ending : StreamEnd} {tokens : List Token} (stands : nextKind tokens ∉ starts) :
      (current >>= next) ending tokens = other ending tokens ∧
        (current >>= next') ending tokens = other' ending tokens := by
    rw [← kind_headD_endToken ending] at stands
    obtain ⟨same, same'⟩ := passes _ stands
    exact ⟨congrArg (· ending tokens) same, congrArg (· ending tokens) same'⟩
  -- a first token that is used stands inside of the source
  have begins {tokens : List Token} (stands : nextKind tokens ∈ starts) :
      ∃ token others, tokens = token :: others ∧ token.kind ∈ starts := by
    cases tokens with
    | nil => exact absurd stands inside
    | cons token others => exact ⟨token, others, rfl, stands⟩
  refine ⟨fun {ending tokens} remain => ?_, fun {ending tokens} remain otherKind => ?_,
    fun {ending tokens rest result} remain starting read => ?_⟩
  · by_cases stands : nextKind tokens ∈ starts
    · obtain ⟨token, others, rfl, starting⟩ := begins stands
      exact ((present token starting).reads (remain.tail (Nat.le_refl _))).1
    · rw [(passed stands).1, (passed stands).2]
      exact absent.same remain
  · have notFirst (stands : nextKind tokens ∈ starts) : False :=
      otherKind (List.mem_append_left _ stands)
    rw [(passed notFirst).1]
    exact absent.declines remain fun stands => otherKind (List.mem_append_right _ stands)
  · by_cases stands : nextKind tokens ∈ starts
    · obtain ⟨token, others, rfl, isFirst⟩ := begins stands
      obtain ⟨value, used, found, rfl, isGood⟩ :=
        ((present token isFirst).reads (remain.tail (Nat.le_refl _))).2 read
      exact ⟨value, token :: used, found, List.cons_ne_nil _ _, rfl, isGood⟩
    · rw [(passed stands).1] at read
      exact absent.applies remain ((List.mem_append.mp starting).resolve_left stands) read

/-- The first token tells whether the rule applies. -/
theorem selectOnly {next next' : Token → Rule (Option α)} (inside : .endOfSource ∉ starts)
    (present : ∀ token, token.kind ∈ starts →
      Takes whole bound good token (next token) (next' token))
    (passes : ∀ token, token.kind ∉ starts → next token = pure none ∧ next' token = pure none) :
    Probes whole (bound + 1) starts good (current >>= next) (current >>= next') :=
  List.append_nil starts ▸ select starts inside present never passes

private theorem accept_bind_eq {next : Bool → Rule α} (inside : kind ≠ .endOfSource) :
    (accept kind >>= next) = current >>= fun token =>
      if token.kind = kind then advance >>= fun _ => next true else next false := by
  funext ending tokens
  by_cases stands : nextKind tokens = kind
  · cases tokens with
    | nil => exact absurd stands.symm inside
    | cons token others =>
        have same : token.kind = kind := stands
        rw [accept_of_same same]
        change _ = (if token.kind = kind then _ else _ : Rule α) ending (token :: others)
        rw [if_pos same]
  · rw [accept_of_other stands]
    rw [← kind_headD_endToken ending] at stands
    change _ = (if (tokens.headD (endToken ending)).kind = kind then _ else _ : Rule α) ending
      tokens
    rw [if_neg stands]

/-- A token that makes the rule apply if it stands there.  Otherwise another rule may apply. -/
theorem acceptOr {next next' : Bool → Rule (Option α)} (inside : kind ≠ .endOfSource)
    (present : ∀ token, Consumes whole bound (fun used => Found (good (token :: used)))
      (next true) (next' true))
    (absent : Probes whole (bound + 1) starts good (next false) (next' false)) :
    Probes whole (bound + 1) (kind :: starts) good (accept kind >>= next)
      (accept kind >>= next') := by
  rw [accept_bind_eq inside, accept_bind_eq inside]
  refine select [kind] (by simpa using inside.symm) ?_ absent ?_
  · intro token starting
    have same : token.kind = kind := List.mem_singleton.mp starting
    rw [if_pos same, if_pos same]
    exact .advance (present token)
  · intro token other
    have different : token.kind ≠ kind := fun same => other (List.mem_singleton.mpr same)
    exact ⟨if_neg different, if_neg different⟩

/-- A token that makes the rule apply. -/
theorem accept {next next' : Bool → Rule (Option α)} (inside : kind ≠ .endOfSource)
    (absent : next false = pure none ∧ next' false = pure none)
    (present : ∀ token, Consumes whole bound (fun used => Found (good (token :: used)))
      (next true) (next' true)) :
    Probes whole (bound + 1) [kind] good (Rule.accept kind >>= next)
      (Rule.accept kind >>= next') := by
  refine acceptOr inside present ?_
  rw [absent.1, absent.2]
  exact never

/-- A rule that may not apply, and what follows it in either case. -/
theorem bindOr {first first' : Rule (Option α)} {second second' : Option α → Rule (Option β)}
    {later : Nat} (shrinks : bound ≤ later + 1)
    (left : Probes whole bound starts good first first')
    (absent : Probes whole bound starts' good' (second none) (second' none))
    (present : ∀ used value, good used value → Consumes whole later
      (fun used' => Found (good' (used ++ used'))) (second (some value))
        (second' (some value))) :
    Probes whole bound (starts ++ starts') good' (first >>= second) (first' >>= second') := by
  refine ⟨(Consumes.bindFound shrinks left absent.anything fun used value isGood =>
      (present used value isGood).mono fun _ _ _ => trivial).same,
    fun {ending tokens} remain otherKind => ?_,
    fun {ending tokens after result} remain starting read => ?_⟩
  · rw [bind_of_ok (left.declines remain fun stands => otherKind (List.mem_append_left _ stands))]
    exact absent.declines remain fun stands => otherKind (List.mem_append_right _ stands)
  · obtain ⟨failure, failed⟩ | ⟨other, declined⟩ |
      ⟨value, used, rest, applied, nonempty, rfl, isGood⟩ := left.outcome remain ending
    · rw [bind_of_error failed] at read
      cases read
    · rw [bind_of_ok declined] at read
      exact absent.applies remain ((List.mem_append.mp starting).resolve_left other) read
    · rw [bind_of_ok applied] at read
      obtain ⟨used', rfl, value', found, isGood'⟩ :=
        (present used value isGood).uses (remain.behindUsed nonempty shrinks) read
      exact ⟨value', used ++ used', found, by simp [nonempty], (List.append_assoc _ _ _).symm,
        isGood'⟩

/-- A rule that may not apply, and what follows it where it does. -/
theorem bind {first first' : Rule (Option α)} {second second' : Option α → Rule (Option β)}
    {later : Nat} (shrinks : bound ≤ later + 1)
    (left : Probes whole bound starts good first first')
    (absent : second none = pure none ∧ second' none = pure none)
    (present : ∀ used value, good used value → Consumes whole later
      (fun used' => Found (good' (used ++ used'))) (second (some value))
        (second' (some value))) :
    Probes whole bound starts good' (first >>= second) (first' >>= second') := by
  have declines : Probes whole bound [] good' (second none) (second' none) := by
    rw [absent.1, absent.2]
    exact never
  have probes := left.bindOr shrinks declines present
  rwa [List.append_nil] at probes

theorem position {next next' : Span → Rule (Option α)}
    (probes : ∀ place, Probes whole bound starts
      (fun used value => used.head?.map Token.span = some place → good used value) (next place)
        (next' place)) :
    Probes whole bound starts good (position >>= next) (position >>= next') where
  same remain := (probes _).same remain
  declines remain other := (probes _).declines remain other
  applies {ending tokens rest result} remain starting read := by
    obtain ⟨value, used, found, nonempty, rfl, isGood⟩ :=
      (probes ((tokens.headD (endToken ending)).span)).applies remain starting read
    refine ⟨value, used, found, nonempty, rfl, isGood ?_⟩
    cases used with
    | nil => exact absurd rfl nonempty
    | cons token used => rfl

theorem anywhere {next next' : Span → Rule (Option α)}
    (probes : ∀ place, Probes whole bound starts good (next place) (next' place)) :
    Probes whole bound starts good (Rule.position >>= next) (Rule.position >>= next') :=
  .position fun place => (probes place).mono fun _ _ _ isGood _ => isGood

end Probes

/-! ## Alternatives -/

/-- Rules that may not apply, each with the kinds of tokens that tell where it does. -/
abbrev Alternatives (α : Type) : Type :=
  List (List TokenKind × Rule (Option α))

/-- The rule is the first of several alternatives that applies.  This is the alternative that
the first token tells. -/
structure ChosenFrom (alternatives : Alternatives α) (rule : Rule (Option α))
    (ending : StreamEnd) (tokens : List Token) : Prop where
  inOrder : rule ending tokens = firstApplicable (alternatives.map Prod.snd) ending tokens
  told : ∀ alternative ∈ alternatives, nextKind tokens ∈ alternative.1 →
    rule ending tokens = alternative.2 ending tokens
  untold : (∀ alternative ∈ alternatives, nextKind tokens ∉ alternative.1) →
    rule ending tokens = .ok (none, tokens)

section Choice

variable {alternatives : Alternatives α} {ending : StreamEnd} {tokens : List Token}

/-- A rule that does what the first token tells tries the alternatives in their order. -/
theorem ChosenFrom.of_told {rule rule' : Rule (Option α)}
    (chosen : ChosenFrom alternatives rule ending tokens)
    (told : ∀ alternative ∈ alternatives, nextKind tokens ∈ alternative.1 →
      rule' ending tokens = alternative.2 ending tokens)
    (untold : (∀ alternative ∈ alternatives, nextKind tokens ∉ alternative.1) →
      rule' ending tokens = .ok (none, tokens)) :
    ChosenFrom alternatives rule' ending tokens := by
  refine ⟨?_, told, untold⟩
  by_cases someTells : ∃ alternative ∈ alternatives, nextKind tokens ∈ alternative.1
  · obtain ⟨alternative, member, starting⟩ := someTells
    rw [told alternative member starting, ← chosen.told alternative member starting]
    exact chosen.inOrder
  · have noneTells (alternative : List TokenKind × Rule (Option α))
        (member : alternative ∈ alternatives) : nextKind tokens ∉ alternative.1 :=
      fun starting => someTells ⟨alternative, member, starting⟩
    rw [untold noneTells, ← chosen.untold noneTells]
    exact chosen.inOrder

/-- Alternatives that different tokens tell. -/
theorem chosenFrom_firstApplicable
    (each : ∀ alternative ∈ alternatives,
      Probes whole bound alternative.1 good alternative.2 alternative.2)
    (apart : (alternatives.map Prod.fst).Pairwise fun earlier later =>
      ∀ kind ∈ earlier, kind ∉ later)
    (remain : Remain whole bound tokens) :
    ChosenFrom alternatives (firstApplicable (alternatives.map Prod.snd)) ending tokens := by
  refine ⟨rfl, fun alternative member starting => ?_, fun other => ?_⟩
  · induction alternatives with
    | nil => cases member
    | cons first others ih =>
        obtain ⟨firstProbes, othersProbe⟩ := List.forall_mem_cons.mp each
        obtain ⟨firstApart, othersApart⟩ := List.pairwise_cons.mp apart
        rcases List.mem_cons.mp member with rfl | member
        · obtain ⟨_, failed⟩ | ⟨untold, -⟩ | ⟨_, _, _, applied, -⟩ :=
            firstProbes.outcome remain ending
          · exact (bind_of_error failed).trans failed.symm
          · exact absurd starting untold
          · exact (bind_of_ok applied).trans applied.symm
        · have untold : nextKind tokens ∉ first.1 := fun stands =>
            firstApart alternative.1 (List.mem_map_of_mem member) _ stands starting
          exact (bind_of_ok (firstProbes.declines remain untold)).trans
            (ih othersProbe othersApart member)
  · induction alternatives with
    | nil => rfl
    | cons first others ih =>
        obtain ⟨firstProbes, othersProbe⟩ := List.forall_mem_cons.mp each
        obtain ⟨firstOther, othersOther⟩ := List.forall_mem_cons.mp other
        exact (bind_of_ok (firstProbes.declines remain firstOther)).trans
          (ih othersProbe (List.pairwise_cons.mp apart).2 othersOther)

end Choice

namespace Probes

theorem zero {rule rule' : Rule (Option α)} : Probes whole 0 starts good rule rule' where
  same remain := absurd remain.short (Nat.not_lt_zero _)
  declines remain := absurd remain.short (Nat.not_lt_zero _)
  applies remain := absurd remain.short (Nat.not_lt_zero _)

theorem congr {rule rule' other other' : Rule (Option α)}
    (probes : Probes whole bound starts good rule rule')
    (same : ∀ {ending tokens}, Remain whole bound tokens →
      other ending tokens = rule ending tokens ∧ other' ending tokens = rule' ending tokens) :
    Probes whole bound starts good other other' where
  same remain := by
    rw [(same remain).1, (same remain).2]
    exact probes.same remain
  declines remain := (same remain).1 ▸ probes.declines remain
  applies remain := (same remain).1 ▸ probes.applies remain

theorem symm {rule rule' : Rule (Option α)} (probes : Probes whole bound starts good rule rule') :
    Probes whole bound starts good rule' rule where
  same remain := (probes.same remain).symm
  declines remain other := (probes.same remain).symm.trans (probes.declines remain other)
  applies remain starting read := probes.applies remain starting ((probes.same remain).trans read)

theorem self {rule rule' : Rule (Option α)} (probes : Probes whole bound starts good rule rule') :
    Probes whole bound starts good rule rule where
  same _ := rfl
  declines := probes.declines
  applies := probes.applies

theorem firstApplicable_nil :
    Probes whole bound [] good (firstApplicable []) (firstApplicable []) :=
  never

theorem firstApplicable_cons {rule rule' : Rule (Option α)} {rules rules' : List (Rule (Option α))}
    (first : Probes whole bound starts good rule rule')
    (others : Probes whole bound starts' good (firstApplicable rules) (firstApplicable rules')) :
    Probes whole bound (starts ++ starts') good (firstApplicable (rule :: rules))
      (firstApplicable (rule' :: rules')) :=
  first.bindOr (Nat.le_succ bound) others fun used value isGood =>
    .pure ⟨value, rfl, by rwa [List.append_nil]⟩

end Probes

end Syntax

end Plainspoken
