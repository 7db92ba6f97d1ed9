import Mathlib.Data.List.Forall2
import Plainspoken.Proofs.Syntax.Reading

/-!
# Reading what was written

A rule restores something from its lexemes if it uses tokens with just these
lexemes, and its result is what was written.  As before this needs that the next
token is none that the rule would take as well, and that there are fewer tokens
than a bound.  The proofs that rules restore something are put together like the
rules.
-/

namespace Plainspoken

open List (Forall₂)

namespace Syntax

open Rule

/-! ## Restoring -/

/-- There is a result, and it is good. -/
def Found {α : Type} (good : α → Prop) (result : Option α) : Prop :=
  ∃ value, result = some value ∧ good value

/-- Of tokens that begin with the lexemes the rule uses just these, with a good
result, provided that it stops at the next token and that there are fewer tokens
than a bound. -/
structure Restores {α : Type} (span : Span) (bound : Nat) (good : α → Prop) (rule : Rule α)
    (lexemes : List Lexeme) (stop : List TokenKind) : Prop where
  restore {used rest : List Token} (written : used.map Token.lexeme = lexemes)
    (stops : nextKind rest ∉ stop) (short : (used ++ rest).length < bound) :
    ∃ result, good result ∧ rule (.endOfSource span) (used ++ rest) = .ok (result, rest)

/-- What stands between a rule and the lexemes behind those it restores: they do
not begin with a token that the rule takes, and if there are none neither does
what follows. -/
def Parted (first : List TokenKind) (lexemes : List Lexeme) (stop : List TokenKind) : Prop :=
  match lexemes with
  | [] => first ⊆ stop
  | lexeme :: _ => lexeme.kind ∉ first

instance (first : List TokenKind) (lexemes : List Lexeme) (stop : List TokenKind) :
    Decidable (Parted first lexemes stop) :=
  match lexemes with
  | [] => inferInstanceAs (Decidable (first ⊆ stop))
  | lexeme :: _ => inferInstanceAs (Decidable (lexeme.kind ∉ first))

/-- The first lexeme is of one of some kinds. -/
def Begins (kinds : List TokenKind) (lexemes : List Lexeme) : Prop :=
  ∃ first others, lexemes = first :: others ∧ first.kind ∈ kinds

variable {α β ι : Type} {span : Span} {bound fuel : Nat} {lexeme : Lexeme}
  {lexemes others : List Lexeme} {stop stop' kinds : List TokenKind}
  {good : α → Prop} {good' : β → Prop}

theorem Parted.stops {first : List TokenKind} (parted : Parted first lexemes stop)
    {used rest : List Token} (written : used.map Token.lexeme = lexemes)
    (stops : nextKind rest ∉ stop) : nextKind (used ++ rest) ∉ first := by
  subst written
  cases used with
  | nil => exact fun taken => stops (parted taken)
  | cons token used => exact parted

theorem Parted.last : Parted stop [] stop :=
  List.Subset.refl stop

theorem Parted.cons {first : List TokenKind} (apart : lexeme.kind ∉ first) :
    Parted first (lexeme :: lexemes) stop :=
  apart

theorem Parted.nil : Parted [] lexemes stop := by
  cases lexemes with
  | nil => exact List.nil_subset stop
  | cons lexeme lexemes => exact List.not_mem_nil

theorem Begins.append (begins : Begins kinds lexemes) (others : List Lexeme) :
    Begins kinds (lexemes ++ others) := by
  obtain ⟨first, more, rfl, isKind⟩ := begins
  exact ⟨first, more ++ others, rfl, isKind⟩

theorem Begins.mono {larger : List TokenKind} (begins : Begins kinds lexemes)
    (subset : kinds ⊆ larger) : Begins larger lexemes := by
  obtain ⟨first, others, rfl, isKind⟩ := begins
  exact ⟨first, others, rfl, subset isKind⟩

theorem Begins.parted {first : List TokenKind} (begins : Begins kinds lexemes)
    (apart : ∀ kind ∈ kinds, kind ∉ first) : Parted first lexemes stop := by
  obtain ⟨lexeme, others, rfl, isKind⟩ := begins
  exact apart _ isKind

theorem Begins.nextKind_mem (begins : Begins kinds lexemes) {used : List Token}
    (written : used.map Token.lexeme = lexemes) (rest : List Token) :
    nextKind (used ++ rest) ∈ kinds := by
  obtain ⟨lexeme, others, rfl, isKind⟩ := begins
  obtain ⟨token, more, rfl, rfl, -⟩ := List.map_eq_cons_iff.mp written
  exact isKind

namespace Restores

theorem weaken {rule : Rule α} {larger : Nat}
    (restores : Restores span larger good rule lexemes stop) (enough : bound ≤ larger)
    (stops : stop ⊆ stop') : Restores span bound good rule lexemes stop' where
  restore written stopped short :=
    restores.restore written (fun taken => stopped (stops taken)) (by omega)

theorem mono {rule : Rule α} {weaker : α → Prop}
    (restores : Restores span bound good rule lexemes stop)
    (implied : ∀ result, good result → weaker result) :
    Restores span bound weaker rule lexemes stop where
  restore written stops short := by
    obtain ⟨result, isGood, read⟩ := restores.restore written stops short
    exact ⟨result, implied result isGood, read⟩

theorem of_eq {rule rule' : Rule α} (restores : Restores span bound good rule lexemes stop)
    (same : ∀ {used rest}, used.map Token.lexeme = lexemes → nextKind rest ∉ stop →
      rule' (.endOfSource span) (used ++ rest) = rule (.endOfSource span) (used ++ rest)) :
    Restores span bound good rule' lexemes stop where
  restore written stops short := by
    rw [same written stops]
    exact restores.restore written stops short

theorem pure {result : α} (isGood : good result) :
    Restores span bound good (Pure.pure result) [] stop where
  restore written _ _ := by
    cases List.map_eq_nil_iff.mp written
    exact ⟨result, isGood, rfl⟩

theorem bind {first : Rule α} {second : α → Rule β}
    (left : Restores span bound good first lexemes stop') (parted : Parted stop' others stop)
    (right : ∀ result, good result → Restores span bound good' (second result) others stop) :
    Restores span bound good' (first >>= second) (lexemes ++ others) stop where
  restore {used rest} written stops short := by
    obtain ⟨before, after, rfl, beforeWritten, afterWritten⟩ := List.map_eq_append_iff.mp written
    rw [List.append_assoc] at short ⊢
    have shorter : (after ++ rest).length < bound := by
      rw [List.length_append] at short
      omega
    obtain ⟨middle, isGood, firstRead⟩ :=
      left.restore beforeWritten (parted.stops afterWritten stops) short
    obtain ⟨result, isGood', secondRead⟩ :=
      (right middle isGood).restore afterWritten stops shorter
    exact ⟨result, isGood', (bind_of_ok firstRead).trans secondRead⟩

/-- A rule and what is made of its result. -/
theorem map {rule : Rule α} {result : α → β} (restores : Restores span bound good rule lexemes stop)
    (implied : ∀ value, good value → good' (result value)) :
    Restores span bound good' (rule >>= fun value => Pure.pure (result value)) lexemes stop := by
  have joined := restores.bind .last fun value isGood => Restores.pure (implied value isGood)
  rwa [List.append_nil] at joined

/-- A token that stands there.  What stands behind it is one token shorter. -/
theorem accept {kind : TokenKind} {next : Bool → Rule α} (same : lexeme.kind = kind)
    (present : Restores span bound good (next true) lexemes stop) :
    Restores span (bound + 1) good (Rule.accept kind >>= next) (lexeme :: lexemes) stop where
  restore {used rest} written stops short := by
    obtain ⟨token, after, rfl, rfl, afterWritten⟩ := List.map_eq_cons_iff.mp written
    obtain ⟨result, isGood, read⟩ :=
      present.restore afterWritten stops (Nat.lt_of_succ_lt_succ short)
    exact ⟨result, isGood, (bind_of_ok (accept_cons same)).trans read⟩

theorem acceptWithin {kind : TokenKind} {next : Bool → Rule α} (same : lexeme.kind = kind)
    (present : Restores span bound good (next true) lexemes stop) :
    Restores span bound good (Rule.accept kind >>= next) (lexeme :: lexemes) stop :=
  (accept same present).weaken (Nat.le_succ bound) (List.Subset.refl stop)

/-- A token that does not stand there. -/
theorem pass {kind : TokenKind} {next : Bool → Rule α}
    (absent : Restores span bound good (next false) lexemes stop)
    (parted : Parted [kind] lexemes stop) :
    Restores span bound good (Rule.accept kind >>= next) lexemes stop where
  restore {used rest} written stops short := by
    have other : nextKind (used ++ rest) ≠ kind := fun same =>
      parted.stops written stops (List.mem_singleton.mpr same)
    obtain ⟨result, isGood, read⟩ := absent.restore written stops short
    exact ⟨result, isGood, (bind_of_ok (accept_of_ne other)).trans read⟩

theorem position {next : Span → Rule α}
    (restores : ∀ place, Restores span bound good (next place) lexemes stop) :
    Restores span bound good (Rule.position >>= next) lexemes stop where
  restore written stops short := (restores _).restore written stops short

theorem require {rule : Rule (Option α)} {symbol : Symbol}
    (restores : Restores span bound (Found good) rule lexemes stop) :
    Restores span bound good (Rule.require symbol rule) lexemes stop where
  restore written stops short := by
    obtain ⟨_, ⟨value, rfl, isGood⟩, read⟩ := restores.restore written stops short
    exact ⟨value, isGood, bind_of_ok read⟩

theorem expect {kind : TokenKind} (same : lexeme.kind = kind) :
    Restores span bound (fun _ => True) (Rule.expect kind) [lexeme] [] :=
  acceptWithin same (.pure trivial)

theorem identifier {name : String} :
    Restores span bound (· = name) Rule.identifier [.identifier name] [] where
  restore {used rest} written _ _ := by
    obtain ⟨token, after, rfl, isName, afterWritten⟩ := List.map_eq_cons_iff.mp written
    obtain ⟨lexeme, place⟩ := token
    cases isName
    cases List.map_eq_nil_iff.mp afterWritten
    exact ⟨name, rfl, rfl⟩

/-- A rule and what follows if it applies. -/
theorem bindFound {first : Rule (Option α)} {second : Option α → Rule β}
    (left : Restores span bound (Found good) first lexemes stop')
    (parted : Parted stop' others stop)
    (right : ∀ value, good value → Restores span bound good' (second (some value)) others stop) :
    Restores span bound good' (first >>= second) (lexemes ++ others) stop := by
  refine left.bind parted ?_
  rintro _ ⟨value, rfl, isGood⟩
  exact right value isGood

theorem bindFoundLast {first : Rule (Option α)} {second : Option α → Rule β}
    (left : Restores span bound (Found good) first lexemes stop') (stops : stop' ⊆ stop)
    (right : ∀ value, good value → Restores span bound good' (second (some value)) [] stop) :
    Restores span bound good' (first >>= second) lexemes stop := by
  have parted : Parted stop' [] stop := stops
  have joined := left.bindFound parted right
  rwa [List.append_nil] at joined

theorem first {rule : Rule (Option α)} {rules : List (Rule (Option α))}
    (restores : Restores span bound (Found good) rule lexemes stop) :
    Restores span bound (Found good) (firstApplicable (rule :: rules)) lexemes stop where
  restore written stops short := by
    obtain ⟨_, ⟨result, rfl, isGood⟩, read⟩ := restores.restore written stops short
    exact ⟨some result, ⟨result, rfl, isGood⟩, bind_of_ok read⟩

/-- The first rule does not apply. -/
theorem later {rule : Rule (Option α)} {rules : List (Rule (Option α))}
    (restores : Restores span bound (Found good) (firstApplicable rules) lexemes stop)
    (declines : ∀ {tokens}, nextKind tokens ∉ stop' →
      rule (.endOfSource span) tokens = .ok (none, tokens))
    (begins : Begins kinds lexemes) (apart : ∀ kind ∈ kinds, kind ∉ stop') :
    Restores span bound (Found good) (firstApplicable (rule :: rules)) lexemes stop where
  restore {used rest} written stops short := by
    have other : nextKind (used ++ rest) ∉ stop' := apart _ (begins.nextKind_mem written rest)
    obtain ⟨result, isGood, read⟩ := restores.restore written stops short
    exact ⟨result, isGood, (bind_of_ok (declines other)).trans read⟩

end Restores

/-! ## Repetition -/

theorem map_eq_of_forall₂ {view : α → β} {written results : List α}
    (same : Forall₂ (fun item result => view result = view item) written results) :
    results.map view = written.map view := by
  induction same with
  | nil => rfl
  | cons first _ ih => rw [List.map_cons, List.map_cons, first, ih]

/-- A rule restores each of some items that are written one after another. -/
inductive RestoresEach (span : Span) (bound : Nat) (rule : Rule (Option α))
    (write : ι → List Lexeme) (restored : ι → α → Prop) (stop : List TokenKind) :
    List ι → Prop where
  | nil : RestoresEach span bound rule write restored stop []
  | cons {item : ι} {items : List ι} {stop' : List TokenKind} (nonempty : write item ≠ [])
      (restores : Restores span bound (Found (restored item)) rule (write item) stop')
      (parted : Parted stop' (items.flatMap write) stop)
      (others : RestoresEach span bound rule write restored stop items) :
      RestoresEach span bound rule write restored stop (item :: items)

section Repetition

variable {rule : Rule (Option α)} {write : ι → List Lexeme} {restored : ι → α → Prop}
  {items : List ι}

/-- Items that begin with tokens at which the rule stops. -/
theorem RestoresEach.of_begins
    (restores : ∀ item ∈ items,
      Restores span bound (Found (restored item)) rule (write item) stop')
    (begins : ∀ item ∈ items, Begins kinds (write item)) (apart : ∀ kind ∈ kinds, kind ∉ stop')
    (stops : stop' ⊆ stop) : RestoresEach span bound rule write restored stop items := by
  induction items with
  | nil => exact .nil
  | cons item items ih =>
      have parted : Parted stop' (items.flatMap write) stop := by
        cases items with
        | nil => exact stops
        | cons next items =>
            rw [List.flatMap_cons]
            exact ((begins next (by simp)).append _).parted apart
      have nonempty : write item ≠ [] := by
        obtain ⟨first, others, same, -⟩ := begins item List.mem_cons_self
        rw [same]
        exact List.cons_ne_nil first others
      refine .cons nonempty (restores item List.mem_cons_self) parted (ih ?_ ?_)
      · exact fun other member => restores other (List.mem_cons_of_mem item member)
      · exact fun other member => begins other (List.mem_cons_of_mem item member)

private theorem RestoresEach.many_eq (each : RestoresEach span bound rule write restored stop items)
    {rest : List Token} (ended : rule (.endOfSource span) rest = .ok (none, rest))
    (stops : nextKind rest ∉ stop) {used : List Token}
    (written : used.map Token.lexeme = items.flatMap write)
    (short : (used ++ rest).length < bound) {fuel : Nat} (enough : (used ++ rest).length < fuel) :
    ∃ results, Forall₂ restored items results ∧
      many fuel rule (.endOfSource span) (used ++ rest) = .ok (results, rest) := by
  -- Every item has a token, so the fuel outlasts the items.
  induction each generalizing used fuel with
  | nil =>
      cases List.map_eq_nil_iff.mp written
      obtain ⟨fuel, rfl⟩ := Nat.exists_eq_add_one.mpr (Nat.zero_lt_of_lt enough)
      exact ⟨[], .nil, bind_of_ok ended⟩
  | @cons item items stop' nonempty restores parted others ih =>
      obtain ⟨fuel, rfl⟩ := Nat.exists_eq_add_one.mpr (Nat.zero_lt_of_lt enough)
      rw [List.flatMap_cons] at written
      obtain ⟨before, after, rfl, beforeWritten, afterWritten⟩ :=
        List.map_eq_append_iff.mp written
      have positive : 0 < before.length := by
        rw [← List.length_map Token.lexeme, beforeWritten]
        exact List.length_pos_iff.mpr nonempty
      rw [List.append_assoc] at short enough ⊢
      obtain ⟨_, ⟨result, rfl, isRestored⟩, read⟩ :=
        restores.restore beforeWritten (parted.stops afterWritten stops) short
      rw [List.length_append] at short enough
      have shorter : (after ++ rest).length < fuel := by omega
      obtain ⟨results, areRestored, readOthers⟩ := ih afterWritten (by omega) shorter
      exact ⟨result :: results, .cons isRestored areRestored,
        (bind_of_ok read).trans (bind_of_ok readOthers)⟩

/-- A rule applied as often as it applies. -/
theorem Restores.many (each : RestoresEach span bound rule write restored stop items)
    (declines : ∀ {rest}, nextKind rest ∉ stop →
      rule (.endOfSource span) rest = .ok (none, rest))
    (enough : bound ≤ fuel) :
    Restores span bound (Forall₂ restored items) (Rule.many fuel rule) (items.flatMap write)
      stop where
  restore written stops short :=
    each.many_eq (declines stops) stops written short (Nat.lt_of_lt_of_le short enough)

end Repetition

end Syntax

end Plainspoken
