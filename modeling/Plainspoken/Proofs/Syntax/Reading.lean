import Plainspoken.Grammar.Statement
import Plainspoken.Proofs.Syntax.Lookahead

/-!
# Grammar rules and the forms they read

A rule reads a form if what it uses is always derived by the form, and if
conversely it uses whatever the form derives.  A rule decides greedily, so the
converse needs that the token behind what is derived is none that the rule would
take as well: the tokens that a rule does not stop at are listed with it.  It
also needs that there are fewer tokens than the bound of the rule.

A rule that may not apply recognises a form if it reads the form whenever it
applies, and does apply unless the first token is none of the form's.

The rules of the grammar are put together from a few combinators, and so are the
proofs that they read what they should.
-/

namespace Plainspoken

namespace Syntax

open Form Rule

/-! ## Rules as functions -/

section Steps

variable {α β : Type} {span : Span} {tokens rest : List Token}

theorem bind_ok_iff {first : Rule α} {second : α → Rule β} {ending : StreamEnd} {result : β} :
    (first >>= second) ending tokens = .ok (result, rest) ↔
      ∃ middle between, first ending tokens = .ok (middle, between) ∧
        second middle ending between = .ok (result, rest) := by
  change andThen first second ending tokens = _ ↔ _
  unfold andThen
  cases first ending tokens with
  | error error => simp
  | ok read =>
      obtain ⟨middle, between⟩ := read
      constructor
      · intro read
        exact ⟨middle, between, rfl, read⟩
      · rintro ⟨_, _, same, read⟩
        cases same
        exact read

theorem bind_of_ok {first : Rule α} {second : α → Rule β} {ending : StreamEnd} {middle : α}
    {between : List Token} (read : first ending tokens = .ok (middle, between)) :
    (first >>= second) ending tokens = second middle ending between := by
  change andThen first second ending tokens = _
  simp only [andThen, read]

theorem pure_ok_iff {result result' : α} {ending : StreamEnd} :
    (pure result : Rule α) ending tokens = .ok (result', rest) ↔
      result = result' ∧ tokens = rest := by
  change Except.ok (result, tokens) = _ ↔ _
  rw [Except.ok.injEq, Prod.mk.injEq]

theorem fail_not_ok {cause : GrammarCause} {ending : StreamEnd} {result : α} :
    (fail cause : Rule α) ending tokens ≠ .ok (result, rest) := by
  intro read
  cases read

theorem kind_headD (tokens : List Token) :
    (tokens.headD (endToken (.endOfSource span))).kind = nextKind tokens := by
  cases tokens <;> rfl

theorem current_eq (tokens : List Token) :
    current (.endOfSource span) tokens =
      .ok (tokens.headD (endToken (.endOfSource span)), tokens) :=
  rfl

private theorem acceptAny_singleton_eq (kind : TokenKind) (tokens : List Token) :
    acceptAny [kind] (.endOfSource span) tokens =
      if nextKind tokens = kind then .ok (some kind, tokens.tail) else .ok (none, tokens) := by
  have next : (tokens.headD (endToken (.endOfSource span))).kind = nextKind tokens :=
    kind_headD tokens
  unfold acceptAny
  rw [bind_of_ok (current_eq tokens)]
  simp only [next, List.contains_cons, List.contains_nil, Bool.or_false, beq_iff_eq]
  by_cases same : nextKind tokens = kind
  · rw [if_pos same, if_pos same, same]
    rfl
  · rw [if_neg same, if_neg same]
    rfl

theorem accept_eq (kind : TokenKind) (tokens : List Token) :
    accept kind (.endOfSource span) tokens =
      if nextKind tokens = kind then .ok (true, tokens.tail) else .ok (false, tokens) := by
  have accepted := @acceptAny_singleton_eq span kind tokens
  unfold accept
  by_cases same : nextKind tokens = kind
  · rw [if_pos same] at accepted ⊢
    rw [bind_of_ok accepted]
    rfl
  · rw [if_neg same] at accepted ⊢
    rw [bind_of_ok accepted]
    rfl

private theorem eq_cons_of_nextKind {kind : TokenKind} (next : nextKind tokens = kind)
    (inside : kind ≠ .endOfSource) :
    ∃ token : Token, token.kind = kind ∧ tokens = token :: tokens.tail := by
  cases tokens with
  | nil => exact absurd next.symm inside
  | cons token tokens => exact ⟨token, next, rfl⟩

theorem accept_ok_iff {kind : TokenKind} {accepted : Bool} (inside : kind ≠ .endOfSource) :
    accept kind (.endOfSource span) tokens = .ok (accepted, rest) ↔
      (accepted = true ∧ ∃ token : Token, token.kind = kind ∧ tokens = token :: rest) ∨
        (accepted = false ∧ nextKind tokens ≠ kind ∧ tokens = rest) := by
  rw [accept_eq]
  by_cases next : nextKind tokens = kind
  · obtain ⟨token, same, cons⟩ := eq_cons_of_nextKind next inside
    rw [if_pos next]
    constructor
    · intro read
      cases read
      exact .inl ⟨rfl, token, same, cons⟩
    · rintro (⟨rfl, token', _, rfl⟩ | ⟨_, other, _⟩)
      · rfl
      · exact absurd next other
  · rw [if_neg next]
    constructor
    · intro read
      cases read
      exact .inr ⟨rfl, next, rfl⟩
    · rintro (⟨_, token, same, rfl⟩ | ⟨rfl, _, rfl⟩)
      · exact absurd same next
      · rfl

theorem accept_cons {kind : TokenKind} {token : Token} (same : token.kind = kind) :
    accept kind (.endOfSource span) (token :: rest) = .ok (true, rest) := by
  rw [accept_eq, nextKind_cons, if_pos same]
  rfl

theorem accept_of_ne {kind : TokenKind} (other : nextKind tokens ≠ kind) :
    accept kind (.endOfSource span) tokens = .ok (false, tokens) := by
  rw [accept_eq, if_neg other]

end Steps

/-! ## Reading a form -/

/-- Any result will do. -/
def Anything {α : Type} (_ : α) : Prop :=
  True

/-- There is a result. -/
def Something {α : Type} (result : Option α) : Prop :=
  ∃ value, result = some value

/-- Of the tokens that begin with what the form derives the rule uses just that,
with a good result, provided that it stops at the next token and that there are
fewer tokens than a bound. -/
structure Completes {α : Type} (span : Span) (bound : Nat) (good : α → Prop) (rule : Rule α)
    (form : Form) (stop : List TokenKind) : Prop where
  complete {used rest : List Token} (derived : Derives form used)
    (stops : nextKind rest ∉ stop) (short : (used ++ rest).length < bound) :
    ∃ result, good result ∧ rule (.endOfSource span) (used ++ rest) = .ok (result, rest)

/-- The rule uses what the form derives and nothing else. -/
structure Reads {α : Type} (span : Span) (bound : Nat) (good : α → Prop) (rule : Rule α)
    (form : Form) (stop : List TokenKind) : Prop
    extends Completes span bound good rule form stop where
  sound {tokens rest : List Token} {result : α}
    (read : rule (.endOfSource span) tokens = .ok (result, rest)) :
    good result ∧ ∃ used, tokens = used ++ rest ∧ Derives form used

/-- The rule applies where the form can begin, and then reads it. -/
structure Recognizes {α : Type} (span : Span) (bound : Nat) (rule : Rule (Option α))
    (form : Form) (stop : List TokenKind) : Prop
    extends Completes span bound Something rule form stop where
  sound {tokens rest : List Token} {result : Option α}
    (read : rule (.endOfSource span) tokens = .ok (result, rest)) :
    (result = none ∧ tokens = rest) ∨
      (Something result ∧ ∃ used, tokens = used ++ rest ∧ Derives form used)
  declines {tokens : List Token} (other : nextKind tokens ∉ firsts form) :
    rule (.endOfSource span) tokens = .ok (none, tokens)

/-- What stands between two forms: the second one does not begin with a token
that the first one takes, and if it is empty neither does what follows. -/
structure Apart (first : List TokenKind) (next : Form) (stop : List TokenKind) : Prop where
  begins : ∀ kind ∈ firsts next, kind ∉ first
  through : nullable next = true → first ⊆ stop

instance (first : List TokenKind) (next : Form) (stop : List TokenKind) :
    Decidable (Apart first next stop) :=
  decidable_of_iff
    ((∀ kind ∈ firsts next, kind ∉ first) ∧ (nullable next = true → first ⊆ stop))
    ⟨fun ⟨begins, through⟩ => ⟨begins, through⟩, fun ⟨begins, through⟩ => ⟨begins, through⟩⟩

variable {α β : Type} {span : Span} {bound : Nat} {form form' : Form} {forms : List Form}
  {stop stop' : List TokenKind} {good : α → Prop} {good' : β → Prop}

theorem Apart.stops {first : List TokenKind} {next : Form} (apart : Apart first next stop)
    {after rest : List Token} (derived : Derives next after) (stops : nextKind rest ∉ stop) :
    nextKind (after ++ rest) ∉ first := by
  by_cases isEmpty : after = []
  · have skipped := apart.through (derived.nullable isEmpty)
    subst isEmpty
    intro taken
    exact stops (skipped taken)
  · rw [nextKind_append isEmpty]
    exact apart.begins _ (derived.nextKind_mem isEmpty)

theorem Apart.last : Apart stop (inOrder []) stop :=
  ⟨nofun, fun _ => List.Subset.refl stop⟩

theorem Apart.nil : Apart [] form stop :=
  ⟨fun _ _ => List.not_mem_nil, fun _ => List.nil_subset stop⟩

/-! ## Using what is derived -/

namespace Completes

theorem weaken {rule : Rule α} {larger : Nat}
    (completes : Completes span larger good rule form stop) (enough : bound ≤ larger)
    (stops : stop ⊆ stop') : Completes span bound good rule form stop' where
  complete derived stopped short :=
    completes.complete derived (fun taken => stopped (stops taken)) (by omega)

theorem congr {rule : Rule α} (completes : Completes span bound good rule form stop)
    (covers : ∀ {tokens}, Derives form' tokens → Derives form tokens) :
    Completes span bound good rule form' stop where
  complete derived := completes.complete (covers derived)

theorem only {rule : Rule α} (completes : Completes span bound good rule form stop) :
    Completes span bound good rule (inOrder [form]) stop :=
  completes.congr derives_only_iff.mp

theorem either {rule : Rule α} (left : Completes span bound good rule form stop)
    (right : Completes span bound good rule form' stop) :
    Completes span bound good rule (.either form form') stop where
  complete derived := by
    cases derived with
    | left derived => exact left.complete derived
    | right derived => exact right.complete derived

theorem bind {first : Rule α} {second : α → Rule β}
    (left : Completes span bound good first form stop')
    (apart : Apart stop' (inOrder forms) stop)
    (right : ∀ result, good result →
      Completes span bound good' (second result) (inOrder forms) stop) :
    Completes span bound good' (first >>= second) (inOrder (form :: forms)) stop where
  complete {used rest} derived stops short := by
    obtain ⟨before, after, rfl, beforeDerived, afterDerived⟩ := derives_cons_iff.mp derived
    rw [List.append_assoc] at short ⊢
    have shorter : (after ++ rest).length < bound := by
      rw [List.length_append] at short
      omega
    obtain ⟨middle, isGood, firstRead⟩ :=
      left.complete beforeDerived (apart.stops afterDerived stops) short
    obtain ⟨result, isGood', secondRead⟩ :=
      (right middle isGood).complete afterDerived stops shorter
    exact ⟨result, isGood', (bind_of_ok firstRead).trans secondRead⟩

/-- A token that stands there.  What stands behind it is one token shorter. -/
theorem accept {kind : TokenKind} {next : Bool → Rule α}
    (present : Completes span bound good (next true) (inOrder forms) stop) :
    Completes span (bound + 1) good (accept kind >>= next) (inOrder (.token kind :: forms))
      stop where
  complete {used rest} derived stops short := by
    obtain ⟨token, after, rfl, same, afterDerived⟩ := derives_token_cons_iff.mp derived
    have shorter : (after ++ rest).length < bound := by
      rw [List.cons_append, List.length_cons] at short
      omega
    obtain ⟨result, isGood, read⟩ := present.complete afterDerived stops shorter
    exact ⟨result, isGood, (bind_of_ok (accept_cons same)).trans read⟩

theorem acceptWithin {kind : TokenKind} {next : Bool → Rule α}
    (present : Completes span bound good (next true) (inOrder forms) stop) :
    Completes span bound good (Rule.accept kind >>= next) (inOrder (.token kind :: forms)) stop :=
  present.accept.weaken (Nat.le_succ bound) (List.Subset.refl stop)

/-- A token that does not stand there. -/
theorem pass {kind : TokenKind} {next : Bool → Rule α}
    (absent : Completes span bound good (next false) form stop)
    (apart : Apart [kind] form stop) :
    Completes span bound good (Rule.accept kind >>= next) form stop where
  complete {used rest} derived stops short := by
    have other : nextKind (used ++ rest) ≠ kind := fun same =>
      apart.stops derived stops (List.mem_singleton.mpr same)
    obtain ⟨result, isGood, read⟩ := absent.complete derived stops short
    exact ⟨result, isGood, (bind_of_ok (accept_of_ne other)).trans read⟩

theorem position {next : Span → Rule α}
    (completes : ∀ place, Completes span bound good (next place) form stop) :
    Completes span bound good (position >>= next) form stop where
  complete derived stops short := (completes _).complete derived stops short

theorem require {rule : Rule (Option α)} {symbol : Symbol}
    (completes : Completes span bound Something rule form stop) :
    Completes span bound Anything (require symbol rule) form stop where
  complete derived stops short := by
    obtain ⟨_, ⟨value, rfl⟩, read⟩ := completes.complete derived stops short
    exact ⟨value, trivial, bind_of_ok read⟩

theorem first {rule : Rule (Option α)} {rules : List (Rule (Option α))}
    (completes : Completes span bound Something rule form stop) :
    Completes span bound Something (firstApplicable (rule :: rules)) form stop where
  complete derived stops short := by
    obtain ⟨_, ⟨result, rfl⟩, read⟩ := completes.complete derived stops short
    exact ⟨some result, ⟨result, rfl⟩, bind_of_ok read⟩

/-- The first rule does not apply. -/
theorem later {rule : Rule (Option α)} {rules : List (Rule (Option α))}
    (recognizes : Recognizes span bound rule form' stop')
    (completes : Completes span bound Something (firstApplicable rules) form stop)
    (solid : nullable form = false) (apart : ∀ kind ∈ firsts form, kind ∉ firsts form') :
    Completes span bound Something (firstApplicable (rule :: rules)) form stop where
  complete {used rest} derived stops short := by
    have nonempty := derived.nonempty solid
    have other : nextKind (used ++ rest) ∉ firsts form' := by
      rw [nextKind_append nonempty]
      exact apart _ (derived.nextKind_mem nonempty)
    obtain ⟨result, found, read⟩ := completes.complete derived stops short
    exact ⟨result, found, (bind_of_ok (recognizes.declines other)).trans read⟩

end Completes

/-! ## Rules that have to apply -/

namespace Reads

theorem congr {rule : Rule α} (reads : Reads span bound good rule form stop)
    (same : ∀ {tokens}, Derives form tokens ↔ Derives form' tokens) :
    Reads span bound good rule form' stop where
  toCompletes := reads.toCompletes.congr same.mpr
  sound read := by
    obtain ⟨isGood, used, split, derived⟩ := reads.sound read
    exact ⟨isGood, used, split, same.mp derived⟩

theorem weaken {rule : Rule α} (reads : Reads span bound good rule form stop)
    (stops : stop ⊆ stop') : Reads span bound good rule form stop' where
  toCompletes := reads.toCompletes.weaken (Nat.le_refl bound) stops
  sound := reads.sound

/-- A form on its own. -/
theorem only {rule : Rule α} (reads : Reads span bound good rule form stop) :
    Reads span bound good rule (inOrder [form]) stop :=
  reads.congr derives_only_iff.symm

theorem symbol {rule : Rule α} {nonterminal : Nonterminal}
    (reads : Reads span bound good rule (Syntax.rule nonterminal) stop) :
    Reads span bound good rule (.symbol nonterminal) stop :=
  reads.congr derives_symbol_iff.symm

theorem pure {result : α} (isGood : good result) :
    Reads span bound good (pure result) (inOrder []) stop where
  complete derived _ _ := by
    rw [derives_nil_iff] at derived
    subst derived
    exact ⟨result, isGood, rfl⟩
  sound read := by
    obtain ⟨rfl, rfl⟩ := pure_ok_iff.mp read
    exact ⟨isGood, [], rfl, .nothing⟩

theorem bind {first : Rule α} {second : α → Rule β}
    (left : Reads span bound good first form stop')
    (apart : Apart stop' (inOrder forms) stop)
    (right : ∀ result, good result →
      Reads span bound good' (second result) (inOrder forms) stop) :
    Reads span bound good' (first >>= second) (inOrder (form :: forms)) stop where
  toCompletes := left.toCompletes.bind apart fun result isGood =>
    (right result isGood).toCompletes
  sound read := by
    obtain ⟨middle, between, firstRead, secondRead⟩ := bind_ok_iff.mp read
    obtain ⟨isGood, before, rfl, beforeDerived⟩ := left.sound firstRead
    obtain ⟨isGood', after, rfl, afterDerived⟩ := (right middle isGood).sound secondRead
    exact ⟨isGood', before ++ after, (List.append_assoc _ _ _).symm,
      .both beforeDerived afterDerived⟩

/-- A rule that has to apply, and what follows when it does. -/
theorem demand {first : Rule (Option α)} {next : Option α → Rule β}
    (recognizes : Recognizes span bound first form stop')
    (apart : Apart stop' (inOrder forms) stop)
    (missing : ∀ {tokens rest : List Token} {result : β},
      next none (.endOfSource span) tokens ≠ .ok (result, rest))
    (present : ∀ result, Reads span bound good' (next (some result)) (inOrder forms) stop) :
    Reads span bound good' (first >>= next) (inOrder (form :: forms)) stop where
  toCompletes := by
    refine recognizes.toCompletes.bind apart ?_
    rintro _ ⟨result, rfl⟩
    exact (present result).toCompletes
  sound read := by
    obtain ⟨middle, between, firstRead, continued⟩ := bind_ok_iff.mp read
    rcases recognizes.sound firstRead with
      ⟨rfl, rfl⟩ | ⟨⟨result, rfl⟩, before, rfl, beforeDerived⟩
    · exact absurd continued missing
    · obtain ⟨isGood, after, rfl, afterDerived⟩ := (present result).sound continued
      exact ⟨isGood, before ++ after, (List.append_assoc _ _ _).symm,
        .both beforeDerived afterDerived⟩

theorem require {rule : Rule (Option α)} {symbol : Symbol}
    (recognizes : Recognizes span bound rule form stop) :
    Reads span bound Anything (require symbol rule) form stop where
  toCompletes := recognizes.toCompletes.require
  sound read := by
    obtain ⟨found, between, ruleRead, continued⟩ := bind_ok_iff.mp read
    rcases recognizes.sound ruleRead with ⟨rfl, rfl⟩ | ⟨⟨value, rfl⟩, used, split, derived⟩
    · exact absurd continued fail_not_ok
    · obtain ⟨_, rfl⟩ := pure_ok_iff.mp continued
      exact ⟨trivial, used, split, derived⟩

theorem expect {kind : TokenKind} (inside : kind ≠ .endOfSource) :
    Reads span bound Anything (expect kind) (.token kind) [] where
  complete derived _ _ := by
    obtain ⟨token, rfl, same⟩ := derives_token_iff.mp derived
    exact ⟨(), trivial, bind_of_ok (accept_cons same)⟩
  sound read := by
    obtain ⟨accepted, between, acceptRead, continued⟩ := bind_ok_iff.mp read
    rcases (accept_ok_iff inside).mp acceptRead with ⟨rfl, token, same, rfl⟩ | ⟨rfl, _, rfl⟩
    · obtain ⟨_, rfl⟩ := pure_ok_iff.mp continued
      exact ⟨trivial, [token], rfl, .token same⟩
    · exact absurd continued fail_not_ok

theorem identifier : Reads span bound Anything identifier (.token .identifier) [] where
  complete derived _ _ := by
    obtain ⟨⟨lexeme, place⟩, rfl, same⟩ := derives_token_iff.mp derived
    cases lexeme with
    | identifier name => exact ⟨name, trivial, rfl⟩
    | _ => cases same
  sound {tokens _ _} read := by
    obtain ⟨token, between, currentRead, continued⟩ := bind_ok_iff.mp read
    cases currentRead
    cases tokens with
    | nil => exact absurd continued fail_not_ok
    | cons token tokens =>
        obtain ⟨lexeme, place⟩ := token
        cases lexeme with
        | identifier name =>
            cases continued
            exact ⟨trivial, [_], rfl, .token rfl⟩
        | _ => exact absurd continued fail_not_ok

/-- A token that may stand there, and what is read in both cases. -/
theorem branch {kind : TokenKind} {next : Bool → Rule α} {other : Form}
    (inside : kind ≠ .endOfSource)
    (taken : Reads span bound good (next true) (inOrder forms) stop)
    (untaken : Reads span bound good (next false) other stop)
    (apart : Apart [kind] other stop) :
    Reads span bound good (accept kind >>= next)
      (.either (inOrder (.token kind :: forms)) other) stop where
  toCompletes :=
    .either taken.toCompletes.acceptWithin (untaken.toCompletes.pass apart)
  sound read := by
    obtain ⟨accepted, between, acceptRead, continued⟩ := bind_ok_iff.mp read
    rcases (accept_ok_iff inside).mp acceptRead with ⟨rfl, token, same, rfl⟩ | ⟨rfl, _, rfl⟩
    · obtain ⟨isGood, used, rfl, derived⟩ := taken.sound continued
      exact ⟨isGood, token :: used, rfl, .left (.both (.token same) derived)⟩
    · obtain ⟨isGood, used, rfl, derived⟩ := untaken.sound continued
      exact ⟨isGood, used, rfl, .right derived⟩

/-- A token that may stand there. -/
theorem accept {kind : TokenKind} (inside : kind ≠ .endOfSource) :
    Reads span bound Anything (accept kind) (optional [.token kind]) [kind] where
  complete {used rest} derived stops _ := by
    rcases derives_optional_iff.mp derived with derived | rfl
    · obtain ⟨token, after, rfl, same, afterDerived⟩ := derives_token_cons_iff.mp derived
      rw [derives_nil_iff] at afterDerived
      subst afterDerived
      exact ⟨true, trivial, accept_cons same⟩
    · have other : nextKind rest ≠ kind := fun same => stops (List.mem_singleton.mpr same)
      exact ⟨false, trivial, accept_of_ne other⟩
  sound read := by
    rcases (accept_ok_iff inside).mp read with ⟨rfl, token, same, rfl⟩ | ⟨rfl, _, rfl⟩
    · exact ⟨trivial, [token], rfl, .left (.both (.token same) .nothing)⟩
    · exact ⟨trivial, [], rfl, .right .nothing⟩

/-- A rule that need not apply. -/
theorem possible {rule : Rule (Option α)} (recognizes : Recognizes span bound rule form stop) :
    Reads span bound Anything rule (optional [form]) (stop ++ firsts form) where
  complete {used rest} derived stops short := by
    rcases derives_optional_iff.mp derived with derived | rfl
    · have stopped : nextKind rest ∉ stop := fun taken => stops (List.mem_append_left _ taken)
      obtain ⟨result, _, read⟩ :=
        recognizes.complete (derives_only_iff.mp derived) stopped short
      exact ⟨result, trivial, read⟩
    · have other : nextKind rest ∉ firsts form := fun first =>
        stops (List.mem_append_right _ first)
      exact ⟨none, trivial, recognizes.declines other⟩
  sound read := by
    rcases recognizes.sound read with ⟨_, rfl⟩ | ⟨_, used, split, derived⟩
    · exact ⟨trivial, [], rfl, .right .nothing⟩
    · exact ⟨trivial, used, split, .left (derives_only_iff.mpr derived)⟩

/-- A rule that may apply, and another one that has to when it does not. -/
theorem attempt {first : Rule (Option α)} {next : Option α → Rule β} {others : List Form}
    (recognizes : Recognizes span bound first form stop)
    (present : ∀ result, Reads span bound good' (next (some result)) (inOrder []) stop)
    (absent : Reads span bound good' (next none) (oneOf others) stop)
    (solid : nullable (oneOf others) = false)
    (apart : ∀ kind ∈ firsts (oneOf others), kind ∉ firsts form) :
    Reads span bound good' (first >>= next) (oneOf (form :: others)) stop where
  toCompletes := by
    refine .either ?_ ⟨fun {used rest} derived stops short => ?_⟩
    · have found : Completes span bound good' (first >>= next) (inOrder [form]) stop := by
        refine recognizes.toCompletes.bind .last ?_
        rintro _ ⟨result, rfl⟩
        exact (present result).toCompletes
      exact found.congr derives_only_iff.mpr
    · have nonempty := derived.nonempty solid
      have other : nextKind (used ++ rest) ∉ firsts form := by
        rw [nextKind_append nonempty]
        exact apart _ (derived.nextKind_mem nonempty)
      rw [bind_of_ok (recognizes.declines other)]
      exact absent.complete derived stops short
  sound read := by
    obtain ⟨middle, between, firstRead, continued⟩ := bind_ok_iff.mp read
    rcases recognizes.sound firstRead with
      ⟨rfl, rfl⟩ | ⟨⟨result, rfl⟩, before, rfl, beforeDerived⟩
    · obtain ⟨isGood, used, rfl, derived⟩ := absent.sound continued
      exact ⟨isGood, used, rfl, .right derived⟩
    · obtain ⟨isGood, after, rfl, afterDerived⟩ := (present result).sound continued
      rw [derives_nil_iff] at afterDerived
      subst afterDerived
      exact ⟨isGood, before, rfl, .left beforeDerived⟩

theorem position {next : Span → Rule α}
    (reads : ∀ place, Reads span bound good (next place) form stop) :
    Reads span bound good (position >>= next) form stop where
  toCompletes := .position fun place => (reads place).toCompletes
  sound read := by
    obtain ⟨place, between, positionRead, continued⟩ := bind_ok_iff.mp read
    cases positionRead
    exact (reads _).sound continued

end Reads

/-! ## Repetition -/

theorem many_sound {rule : Rule (Option α)} (recognizes : Recognizes span bound rule form stop)
    {fuel : Nat} {tokens rest : List Token} {results : List α}
    (read : many fuel rule (.endOfSource span) tokens = .ok (results, rest)) :
    ∃ used, tokens = used ++ rest ∧ Derives (.repeated form) used := by
  induction fuel generalizing tokens results with
  | zero =>
      obtain ⟨_, rfl⟩ := pure_ok_iff.mp read
      exact ⟨[], rfl, .done⟩
  | succ fuel ih =>
      obtain ⟨found, between, ruleRead, continued⟩ := bind_ok_iff.mp read
      rcases recognizes.sound ruleRead with ⟨rfl, rfl⟩ | ⟨⟨result, rfl⟩, used, rfl, derived⟩
      · obtain ⟨_, rfl⟩ := pure_ok_iff.mp continued
        exact ⟨[], rfl, .done⟩
      · obtain ⟨results, between', restRead, ended⟩ := bind_ok_iff.mp continued
        obtain ⟨_, rfl⟩ := pure_ok_iff.mp ended
        obtain ⟨more, rfl, moreDerived⟩ := ih restRead
        exact ⟨used ++ more, (List.append_assoc _ _ _).symm, .again derived moreDerived⟩

/-- A rule is applied as often as it applies if what is left of a repetition can
always be divided so that the rule reads the first part of it. -/
theorem many_complete {rule : Rule (Option α)} {rest : List Token}
    (ended : rule (.endOfSource span) rest = .ok (none, rest))
    (divide : ∀ {used : List Token}, Derives (.repeated form) used → used ≠ [] →
      (used ++ rest).length < bound → ∃ before after result, used = before ++ after ∧
        before ≠ [] ∧ Derives (.repeated form) after ∧
          rule (.endOfSource span) (before ++ (after ++ rest)) =
            .ok (some result, after ++ rest))
    {fuel : Nat} {used : List Token} (derived : Derives (.repeated form) used)
    (short : (used ++ rest).length < bound) (enough : (used ++ rest).length < fuel) :
    ∃ results, many fuel rule (.endOfSource span) (used ++ rest) = .ok (results, rest) := by
  -- Every round uses a token, so the fuel outlasts the tokens.
  induction fuel generalizing used with
  | zero => omega
  | succ fuel ih =>
      by_cases isEmpty : used = []
      · subst isEmpty
        exact ⟨[], bind_of_ok ended⟩
      · obtain ⟨before, after, result, rfl, nonempty, afterDerived, ruleRead⟩ :=
          divide derived isEmpty short
        have positive : 0 < before.length := List.length_pos_iff.mpr nonempty
        rw [List.append_assoc] at short enough ⊢
        rw [List.length_append] at short enough
        obtain ⟨results, restRead⟩ := ih afterDerived (by omega) (by omega)
        exact ⟨result :: results, (bind_of_ok ruleRead).trans (bind_of_ok restRead)⟩

/-- A rule applied as often as it applies. -/
theorem Reads.many {rule : Rule (Option α)} (recognizes : Recognizes span bound rule form stop)
    (solid : nullable form = false) (apart : ∀ kind ∈ firsts form, kind ∉ stop) {fuel : Nat}
    (enough : bound ≤ fuel) :
    Reads span bound Anything (many fuel rule) (.repeated form) (stop ++ firsts form) where
  complete {used rest} derived stops short := by
    have other : nextKind rest ∉ firsts form := fun first =>
      stops (List.mem_append_right _ first)
    have between : Apart stop (.repeated form) (stop ++ firsts form) :=
      ⟨apart, fun _ => List.subset_append_left _ _⟩
    have repeats : ∃ results, Rule.many fuel rule (.endOfSource span) (used ++ rest) =
        .ok (results, rest) := by
      refine many_complete (recognizes.declines other) ?_ derived short (by omega)
      intro used derived nonempty short
      rcases derives_repeated_iff.mp derived with
        rfl | ⟨before, after, rfl, beforeDerived, afterDerived⟩
      · exact absurd rfl nonempty
      · rw [List.append_assoc] at short
        obtain ⟨_, ⟨result, rfl⟩, read⟩ :=
          recognizes.complete beforeDerived (between.stops afterDerived stops) short
        exact ⟨before, after, result, rfl, beforeDerived.nonempty solid, afterDerived, read⟩
    obtain ⟨results, read⟩ := repeats
    exact ⟨results, trivial, read⟩
  sound read := ⟨trivial, many_sound recognizes read⟩

/-! ## Rules that may not apply -/

namespace Recognizes

theorem congr {rule : Rule (Option α)} (recognizes : Recognizes span bound rule form stop)
    (same : ∀ {tokens}, Derives form tokens ↔ Derives form' tokens)
    (starts : firsts form ⊆ firsts form') : Recognizes span bound rule form' stop where
  toCompletes := recognizes.toCompletes.congr same.mpr
  sound read := by
    rcases recognizes.sound read with declined | ⟨found, used, split, derived⟩
    · exact .inl declined
    · exact .inr ⟨found, used, split, same.mp derived⟩
  declines other := recognizes.declines fun first => other (starts first)

theorem of_eq {rule rule' : Rule (Option α)} (recognizes : Recognizes span bound rule form stop)
    (same : ∀ tokens, rule' (.endOfSource span) tokens = rule (.endOfSource span) tokens) :
    Recognizes span bound rule' form stop where
  complete {used rest} derived stops short := by
    rw [same]
    exact recognizes.complete derived stops short
  sound {tokens rest result} read := by
    rw [same] at read
    exact recognizes.sound read
  declines {tokens} other := by
    rw [same]
    exact recognizes.declines other

theorem symbol {rule : Rule (Option α)} {nonterminal : Nonterminal}
    (recognizes : Recognizes span bound rule (Syntax.rule nonterminal) stop) :
    Recognizes span bound rule (.symbol nonterminal) stop :=
  recognizes.congr derives_symbol_iff.symm (firsts_rule_subset nonterminal)

theorem weaken {rule : Rule (Option α)} {larger : Nat}
    (recognizes : Recognizes span larger rule form stop) (enough : bound ≤ larger)
    (stops : stop ⊆ stop') : Recognizes span bound rule form stop' where
  toCompletes := recognizes.toCompletes.weaken enough stops
  sound := recognizes.sound
  declines := recognizes.declines

theorem position {next : Span → Rule (Option α)}
    (recognizes : ∀ place, Recognizes span bound (next place) form stop) :
    Recognizes span bound (position >>= next) form stop where
  toCompletes := .position fun place => (recognizes place).toCompletes
  sound read := by
    obtain ⟨place, between, positionRead, continued⟩ := bind_ok_iff.mp read
    cases positionRead
    exact (recognizes _).sound continued
  declines other := (recognizes _).declines other

/-- A rule that applies where a token stands. -/
theorem accept {kind : TokenKind} {next : Bool → Rule (Option α)}
    (inside : kind ≠ .endOfSource) (absent : next false = pure none)
    (present : Reads span bound Something (next true) (inOrder forms) stop) :
    Recognizes span (bound + 1) (accept kind >>= next) (inOrder (.token kind :: forms))
      stop where
  toCompletes := present.toCompletes.accept
  sound read := by
    obtain ⟨accepted, between, acceptRead, continued⟩ := bind_ok_iff.mp read
    rcases (accept_ok_iff inside).mp acceptRead with ⟨rfl, token, same, rfl⟩ | ⟨rfl, _, rfl⟩
    · obtain ⟨found, used, rfl, derived⟩ := present.sound continued
      exact .inr ⟨found, token :: used, rfl, .both (.token same) derived⟩
    · rw [absent] at continued
      obtain ⟨rfl, rfl⟩ := pure_ok_iff.mp continued
      exact .inl ⟨rfl, rfl⟩
  declines {tokens} other := by
    have different : nextKind tokens ≠ kind := fun same => other (same ▸ List.mem_cons_self)
    rw [bind_of_ok (accept_of_ne different), absent]
    rfl

theorem acceptWithin {kind : TokenKind} {next : Bool → Rule (Option α)}
    (inside : kind ≠ .endOfSource) (absent : next false = pure none)
    (present : Reads span bound Something (next true) (inOrder forms) stop) :
    Recognizes span bound (Rule.accept kind >>= next) (inOrder (.token kind :: forms)) stop :=
  (accept inside absent present).weaken (Nat.le_succ bound) (List.Subset.refl stop)

/-- A rule that a token selects, and what else applies in its absence. -/
theorem choose {kind : TokenKind} {next : Bool → Rule (Option α)} {others : List Form}
    (inside : kind ≠ .endOfSource)
    (present : Reads span bound Something (next true) (inOrder forms) stop)
    (absent : Recognizes span bound (next false) (oneOf others) stop)
    (apart : Apart [kind] (oneOf others) stop) :
    Recognizes span bound (Rule.accept kind >>= next)
      (oneOf (inOrder (.token kind :: forms) :: others)) stop where
  toCompletes :=
    .either present.toCompletes.acceptWithin (absent.toCompletes.pass apart)
  sound read := by
    obtain ⟨accepted, between, acceptRead, continued⟩ := bind_ok_iff.mp read
    rcases (accept_ok_iff inside).mp acceptRead with ⟨rfl, token, same, rfl⟩ | ⟨rfl, _, rfl⟩
    · obtain ⟨found, used, rfl, derived⟩ := present.sound continued
      exact .inr ⟨found, token :: used, rfl, .left (.both (.token same) derived)⟩
    · rcases absent.sound continued with declined | ⟨found, used, rfl, derived⟩
      · exact .inl declined
      · exact .inr ⟨found, used, rfl, .right derived⟩
  declines {tokens} other := by
    have different : nextKind tokens ≠ kind := fun same =>
      other (same ▸ List.mem_append_left _ (List.mem_append_left _ List.mem_cons_self))
    rw [bind_of_ok (accept_of_ne different)]
    exact absent.declines fun first => other (List.mem_append_right _ first)

/-- A rule that applies where another one does. -/
theorem bind {first : Rule (Option α)} {next : Option α → Rule (Option β)}
    (recognizes : Recognizes span bound first form stop')
    (apart : Apart stop' (inOrder forms) stop) (absent : next none = pure none)
    (present : ∀ result, Reads span bound Something (next (some result)) (inOrder forms) stop) :
    Recognizes span bound (first >>= next) (inOrder (form :: forms)) stop where
  toCompletes := by
    refine recognizes.toCompletes.bind apart ?_
    rintro _ ⟨result, rfl⟩
    exact (present result).toCompletes
  sound read := by
    obtain ⟨found, between, firstRead, continued⟩ := bind_ok_iff.mp read
    rcases recognizes.sound firstRead with
      ⟨rfl, rfl⟩ | ⟨⟨result, rfl⟩, before, rfl, beforeDerived⟩
    · rw [absent] at continued
      obtain ⟨rfl, rfl⟩ := pure_ok_iff.mp continued
      exact .inl ⟨rfl, rfl⟩
    · obtain ⟨found, after, rfl, afterDerived⟩ := (present result).sound continued
      exact .inr ⟨found, before ++ after, (List.append_assoc _ _ _).symm,
        .both beforeDerived afterDerived⟩
  declines {tokens} other := by
    have different : nextKind tokens ∉ firsts form := fun first =>
      other (List.mem_append_left _ first)
    rw [bind_of_ok (recognizes.declines different), absent]
    rfl

/-- A rule that the first token selects if it is of certain kinds. -/
theorem select {rule : Rule (Option α)} (choice : Token → Option β)
    (next : β → Rule (Option α)) {kinds : List TokenKind}
    (selects : ∀ tokens, rule (.endOfSource span) tokens =
      (choice (tokens.headD (endToken (.endOfSource span)))).elim (.ok (none, tokens))
        fun chosen => next chosen (.endOfSource span) tokens.tail)
    (domain : ∀ token, (choice token).isSome = true ↔ token.kind ∈ kinds)
    (inside : TokenKind.endOfSource ∉ kinds)
    (reads : ∀ chosen, Reads span bound Something (next chosen) (inOrder forms) stop) :
    Recognizes span (bound + 1) rule (inOrder (oneOf (kinds.map .token) :: forms)) stop where
  complete {used rest} derived stops short := by
    obtain ⟨before, after, rfl, beforeDerived, afterDerived⟩ := derives_cons_iff.mp derived
    obtain ⟨token, rfl, isKind⟩ := derives_oneOf_tokens_iff.mp beforeDerived
    obtain ⟨chosen, found⟩ := Option.isSome_iff_exists.mp ((domain token).mpr isKind)
    have shorter : (after ++ rest).length < bound := Nat.lt_of_succ_lt_succ short
    rw [selects]
    simp only [List.cons_append, List.headD_cons, found]
    exact (reads chosen).complete afterDerived stops shorter
  sound {tokens rest result} read := by
    rw [selects] at read
    cases found : choice (tokens.headD (endToken (.endOfSource span))) with
    | none =>
        rw [found] at read
        cases read
        exact .inl ⟨rfl, rfl⟩
    | some chosen =>
        have isKind := (domain _).mp (Option.isSome_of_eq_some found)
        rw [found] at read
        cases tokens with
        | nil => exact absurd isKind inside
        | cons token tokens =>
            obtain ⟨isSome, used, rfl, derived⟩ := (reads chosen).sound read
            exact .inr ⟨isSome, token :: used, rfl,
              .both (derives_oneOf_tokens_iff.mpr ⟨token, rfl, isKind⟩) derived⟩
  declines {tokens} other := by
    have missing : choice (tokens.headD (endToken (.endOfSource span))) = Option.none := by
      rw [← Option.not_isSome_iff_eq_none, domain, kind_headD]
      intro isKind
      rw [← firsts_oneOf_tokens kinds] at isKind
      exact other (List.mem_append_left _ isKind)
    rw [selects, missing]
    rfl

theorem none : Recognizes span bound (firstApplicable [] : Rule (Option α)) (oneOf []) stop where
  complete derived := absurd derived not_derives_never
  sound read := by
    obtain ⟨rfl, rfl⟩ := pure_ok_iff.mp read
    exact .inl ⟨rfl, rfl⟩
  declines _ := rfl

/-- A rule without fuel. -/
theorem exhausted : Recognizes span 0 (pure Option.none : Rule (Option α)) form stop where
  complete _ _ short := absurd short (Nat.not_lt_zero _)
  sound read := by
    obtain ⟨rfl, rfl⟩ := pure_ok_iff.mp read
    exact .inl ⟨rfl, rfl⟩
  declines _ := rfl

/-- The first of several rules that applies. -/
theorem firstApplicable {rule : Rule (Option α)} {rules : List (Rule (Option α))}
    (recognizes : Recognizes span bound rule form stop)
    (rest : Recognizes span bound (firstApplicable rules) (oneOf forms) stop)
    (solid : nullable (oneOf forms) = false)
    (apart : ∀ kind ∈ firsts (oneOf forms), kind ∉ firsts form) :
    Recognizes span bound (firstApplicable (rule :: rules)) (oneOf (form :: forms)) stop where
  toCompletes :=
    .either recognizes.toCompletes.first (.later recognizes rest.toCompletes solid apart)
  sound read := by
    obtain ⟨found, between, ruleRead, continued⟩ := bind_ok_iff.mp read
    rcases recognizes.sound ruleRead with ⟨rfl, rfl⟩ | ⟨⟨result, rfl⟩, used, rfl, derived⟩
    · rcases rest.sound continued with declined | ⟨found, used, rfl, derived⟩
      · exact .inl declined
      · exact .inr ⟨found, used, rfl, .right derived⟩
    · obtain ⟨rfl, rfl⟩ := pure_ok_iff.mp continued
      exact .inr ⟨⟨result, rfl⟩, used, rfl, .left derived⟩
  declines {tokens} other := by
    have notThis : nextKind tokens ∉ firsts form := fun first =>
      other (List.mem_append_left _ first)
    have notRest : nextKind tokens ∉ firsts (oneOf forms) := fun first =>
      other (List.mem_append_right _ first)
    exact (bind_of_ok (recognizes.declines notThis)).trans (rest.declines notRest)

end Recognizes

end Syntax

end Plainspoken
