import Plainspoken.Proofs.Immutability
import Plainspoken.Proofs.MatchBranches

/-!
# Rules for expressions

What an expression evaluates to, in terms of what its parts evaluate to.  Fuel does not
occur in the rules: the parts of a node may take different amounts of it, and the node
takes the largest one and one more.

What is read off a machine under a name depends on its variables only, so the level, the
place and the flags that are noted around a node make no difference to it.
-/

namespace Plainspoken

open Stepping Evaluation

/-! ## Machines with the same variables -/

/-- The variables of a frame, scope by scope. -/
def Frame.holdings (frame : Frame) : List (List Variable) :=
  frame.scopes.map Scope.bindings

namespace Frame

private theorem find?_of_holdings_eq {frame after : Frame} (same : after.holdings = frame.holdings)
    (name : String) : after.find? name = frame.find? name := by
  obtain ⟨_, _, _, scopes⟩ := frame
  obtain ⟨_, _, _, scopes'⟩ := after
  change scopes'.map Scope.bindings = scopes.map Scope.bindings at same
  change findIn name scopes' = findIn name scopes
  induction scopes generalizing scopes' with
  | nil => rw [List.map_eq_nil_iff.mp same]
  | cons scope scopes ih =>
      cases scopes' with
      | nil => cases same
      | cons scope' scopes' =>
          obtain ⟨sameInner, sameOuter⟩ := List.cons_eq_cons.mp same
          have sameLength : scopes'.length = scopes.length := by
            simpa using congrArg List.length sameOuter
          have sameFound : scope'.binding? name = scope.binding? name := by
            rw [Scope.binding?, sameInner]
            rfl
          rw [findIn, findIn, sameFound, sameLength, ih scopes' sameOuter]

theorem holdings_modifyInnermost (frame : Frame) {change : Scope → Scope}
    (kept : ∀ scope : Scope, (change scope).bindings = scope.bindings) :
    (frame.modifyInnermost change).holdings = frame.holdings :=
  frame.map_bindings_modifyInnermost kept

@[simp]
theorem holdings_setFlags (frame : Frame) (flags : Flags) :
    (frame.setFlags flags).holdings = frame.holdings :=
  frame.holdings_modifyInnermost fun _ => rfl

@[simp]
theorem holdings_unsetFlags (frame : Frame) (flags : Flags) :
    (frame.unsetFlags flags).holdings = frame.holdings :=
  frame.holdings_modifyInnermost fun _ => rfl

end Frame

namespace Machine

def holdings (machine : Machine) : List (List (List Variable)) :=
  machine.stack.frames.map Frame.holdings

@[simp]
theorem holdings_entered (machine : Machine) (span : Span) :
    (machine.entered span).holdings = machine.holdings :=
  rfl

/-- The machine one level higher, with the value of the node that ended there. -/
def concluded (machine : Machine) (value : Value) : Machine :=
  { machine.left with lastValue := value }

@[simp]
theorem holdings_concluded (machine : Machine) (value : Value) :
    (machine.concluded value).holdings = machine.holdings :=
  rfl

@[simp]
theorem holdings_setFlags (machine : Machine) (flags : Flags) :
    (machine.setFlags flags).holdings = machine.holdings :=
  congrArg (· :: machine.stack.callers.map Frame.holdings)
    (machine.current.holdings_setFlags flags)

@[simp]
theorem holdings_unsetFlags (machine : Machine) (flags : Flags) :
    (machine.unsetFlags flags).holdings = machine.holdings :=
  congrArg (· :: machine.stack.callers.map Frame.holdings)
    (machine.current.holdings_unsetFlags flags)

section Same

variable {machine after : Machine} (same : after.holdings = machine.holdings)

include same

theorem height_of_holdings_eq : after.stack.height = machine.stack.height := by
  have lengths := congrArg List.length same
  simp only [holdings, List.length_map, CallStack.frames, List.length_cons] at lengths
  exact Nat.succ_inj.mp lengths

private theorem frame?_of_holdings_eq (height : Nat) :
    (after.stack.frame? height).map Frame.holdings =
      (machine.stack.frame? height).map Frame.holdings := by
  rw [CallStack.frame?_eq, CallStack.frame?_eq, ← Height.get?_map, ← Height.get?_map]
  exact congrArg (Height.get? · height) same

theorem binding?_of_holdings_eq (site : Site) :
    after.stack.binding? site = machine.stack.binding? site := by
  have frames := frame?_of_holdings_eq same site.frame
  unfold CallStack.binding?
  generalize after.stack.frame? site.frame = found', machine.stack.frame? site.frame = found
    at frames
  cases found with
  | none => rw [Option.map_eq_none_iff.mp frames]
  | some frame =>
      obtain ⟨frame', rfl, sameFrame⟩ := Option.map_eq_some_iff.mp frames
      exact Frame.binding?_of_map_bindings_eq sameFrame site.scope site.name

theorem find?_of_holdings_eq (name : String) :
    after.stack.find? name = machine.stack.find? name := by
  have current : after.stack.current.holdings = machine.stack.current.holdings :=
    (List.cons_eq_cons.mp same).1
  have globals := frame?_of_holdings_eq same 0
  rw [CallStack.frame?_zero, CallStack.frame?_zero] at globals
  unfold CallStack.find?
  rw [Frame.find?_of_holdings_eq current, height_of_holdings_eq same,
    Frame.find?_of_holdings_eq (Option.some.inj globals)]

theorem owner_of_holdings_eq (site : Site) :
    after.stack.owner site = machine.stack.owner site := by
  unfold CallStack.owner
  rw [binding?_of_holdings_eq same]

theorem ownerOf?_of_holdings_eq (name : String) :
    after.ownerOf? name = machine.ownerOf? name := by
  unfold ownerOf?
  simp only [find?_of_holdings_eq same, owner_of_holdings_eq same,
    binding?_of_holdings_eq same]

private theorem valueOf_of_holdings_eq (name : String) :
    after.valueOf name = machine.valueOf name := by
  unfold valueOf
  rw [ownerOf?_of_holdings_eq same]

end Same

end Machine

/-! ## What is found under a name -/

theorem Scope.name_eq_of_binding? {scope : Scope} {name : String} {binding : Variable}
    (found : scope.binding? name = some binding) : binding.name = name := by
  simpa using List.find?_some found

namespace CallStack

variable {stack : CallStack} {site : Site} {binding : Variable}

/-- The variable at a site, in its scope and frame. -/
theorem exists_scope_of_binding? (found : stack.binding? site = some binding) :
    ∃ frame ∈ stack.frames, ∃ scope ∈ frame.scopes, scope.binding? site.name = some binding := by
  obtain ⟨frame, frameFound, inFrame⟩ := Option.bind_eq_some_iff.mp found
  obtain ⟨scope, scopeFound, inScope⟩ := Option.bind_eq_some_iff.mp inFrame
  rw [CallStack.frame?_eq] at frameFound
  exact ⟨frame, Height.mem_of_get?_eq_some frameFound, scope,
    Height.mem_of_get?_eq_some scopeFound, inScope⟩

theorem name_eq_of_binding? (found : stack.binding? site = some binding) :
    binding.name = site.name := by
  obtain ⟨_, _, _, _, inScope⟩ := exists_scope_of_binding? found
  exact Scope.name_eq_of_binding? inScope

theorem name_eq_of_find? {name : String} (found : stack.find? name = some site) :
    site.name = name := by
  unfold find? at found
  split at found
  · cases found
    rfl
  · obtain ⟨scope, -, rfl⟩ := Option.map_eq_some_iff.mp found
    rfl

/-- A variable that refers to no other one owns its storage. -/
theorem owner_eq_self (found : stack.binding? site = some binding)
    (alone : binding.reference = none) : stack.owner site = site := by
  simp [owner, found, alone]

end CallStack

theorem Machine.Everywhere.of_binding? {property : Scope → Prop} {machine : Machine}
    (everywhere : machine.Everywhere property) {site : Site} {binding : Variable}
    (found : machine.stack.binding? site = some binding) :
    ∃ scope, property scope ∧ binding ∈ scope.bindings := by
  obtain ⟨frame, frameMember, scope, scopeMember, inScope⟩ :=
    CallStack.exists_scope_of_binding? found
  exact ⟨scope, everywhere frame frameMember scope scopeMember, List.mem_of_find?_eq_some inScope⟩

/-- A value that is read is held by a variable that is initialized. -/
theorem Machine.valueOf_eq_ok_iff {machine : Machine} {name : String} {value : Value} :
    machine.valueOf name = .ok value ↔ ∃ site stored, machine.stack.find? name = some site ∧
      machine.stack.binding? (machine.stack.owner site) = some stored ∧
      stored.initialized = true ∧ value = stored.value := by
  unfold Machine.valueOf Machine.ownerOf?
  cases machine.stack.find? name with
  | none => simp
  | some site =>
      simp only [Option.bind_eq_bind, Option.bind_some, Option.some.injEq, exists_and_left,
        exists_eq_left']
      cases machine.stack.binding? (machine.stack.owner site) with
      | none => simp
      | some stored =>
          simp only [Option.bind_some, Option.some.injEq, exists_eq_left']
          obtain ⟨declarator, held, reference, initialized⟩ := stored
          cases initialized with
          | true => simpa using eq_comm
          | false => simp

theorem Machine.valueOf_eq_ok_iff_of_ownerOf? {machine : Machine} {name : String} {owner : Site}
    {stored : Variable} (owns : machine.ownerOf? name = some (owner, stored)) {value : Value} :
    machine.valueOf name = .ok value ↔ stored.initialized = true ∧ value = stored.value := by
  unfold Machine.valueOf
  rw [owns]
  by_cases initialized : stored.initialized = true
  · simp [initialized, eq_comm]
  · simp [initialized]

/-! ## Rules -/

namespace Action

variable {α : Type} {machine after : Machine} {result : α}

theorem finished_ofExcept (computed : Except RuntimeCause α) :
    (ofExcept computed : Action α) machine = .finished result after ↔
      computed = .ok result ∧ machine = after := by
  cases computed with
  | ok value =>
      refine (finished_pure value).trans ?_
      rw [Except.ok.injEq]
  | error cause =>
      refine (finished_fail cause).trans ?_
      simp

theorem finished_valueOf (name : String) {value : Value} :
    (Stepping.valueOf name : Action Value) machine = .finished value after ↔
      machine.valueOf name = .ok value ∧ machine = after := by
  simp only [Stepping.valueOf, finished_bind, finished_read, finished_ofExcept]
  constructor
  · rintro ⟨_, _, ⟨rfl, rfl⟩, reads⟩
    exact reads
  · intro reads
    exact ⟨_, _, ⟨rfl, rfl⟩, reads⟩

theorem finished_storeAt (site : Site) (value : Value) (done : Unit) :
    (storeAt site value : Action Unit) machine = .finished done after ↔
      (machine.stack.binding? site).isSome = true ∧ machine.store site value = after := by
  simp only [storeAt, finished_bind, finished_read]
  constructor
  · rintro ⟨_, _, ⟨rfl, rfl⟩, stores⟩
    split at stores
    · next lives => exact ⟨lives, (finished_update _ _).mp stores⟩
    · exact ((finished_fail _).mp stores).elim
  · rintro ⟨lives, rfl⟩
    refine ⟨_, _, ⟨rfl, rfl⟩, ?_⟩
    rw [if_pos lives]
    rfl

theorem finished_assign (evaluate : Expression → Action Value) (target content : Expression)
    {value : Value} :
    (assign evaluate target content) machine = .finished value after ↔
      ∃ name owner stored result between, target.name? = some name ∧
        isReservedName name = false ∧ machine.ownerOf? name = some (owner, stored) ∧
        stored.declarator.isMutable = true ∧
        usedValue evaluate content machine = .finished result between ∧
        (between.stack.binding? owner).isSome = true ∧
        value = result.cast stored.declarator.type ∧ after = between.store owner value := by
  unfold assign
  constructor
  · intro finished
    cases isName : target.name? with
    | none =>
        rw [isName] at finished
        exact ((finished_fail _).mp finished).elim
    | some name =>
        rw [isName] at finished
        by_cases free : isReservedName name = true
        · simp only [free, if_true, finished_fail] at finished
        · simp only [free, if_false, finished_bind, finished_read, Bool.false_eq_true] at finished
          obtain ⟨_, _, ⟨rfl, rfl⟩, finished⟩ := finished
          cases owns : machine.ownerOf? name with
          | none =>
              simp only [owns, finished_fail] at finished
          | some owned =>
              obtain ⟨owner, stored⟩ := owned
              by_cases assignable : stored.declarator.isMutable = true
              · simp only [owns, assignable, if_true, finished_bind, finished_storeAt,
                  finished_pure] at finished
                obtain ⟨result, between, evaluates, _, _, ⟨lives, rfl⟩, rfl, rfl⟩ := finished
                exact ⟨name, owner, stored, result, between, rfl, by simpa using free, owns,
                  assignable, evaluates, lives, rfl, rfl⟩
              · simp only [owns, assignable, Bool.false_eq_true, if_false,
                  finished_fail] at finished
  · rintro ⟨name, owner, stored, result, between, isName, free, owns, assignable, evaluates,
      lives, rfl, rfl⟩
    rw [isName]
    simp only [free, Bool.false_eq_true, if_false, finished_bind, finished_read]
    refine ⟨_, _, ⟨rfl, rfl⟩, ?_⟩
    simp only [owns, assignable, if_true, finished_bind, finished_storeAt, finished_pure]
    exact ⟨result, between, evaluates, (), _, ⟨lives, rfl⟩, rfl, rfl⟩

end Action

section Families

variable {α β : Type} {machine after : Machine} {result : α}

theorem finishes_const_iff (action : Action α) :
    Finishes (fun _ => action) machine result after ↔ action machine = .finished result after :=
  ⟨fun ⟨_, finished⟩ => finished, fun finished => ⟨0, finished⟩⟩

/-- Two actions, each of which does the same with more fuel, can share the fuel of the one
that takes more. -/
theorem finishes_bind_iff {first : Nat → Action β} {second : β → Nat → Action α}
    (firstStep : ∀ fuel, approximating.Related (first fuel) (first (fuel + 1)))
    (secondStep : ∀ middle fuel,
      approximating.Related (second middle fuel) (second middle (fuel + 1))) :
    Finishes (fun fuel => first fuel >>= fun middle => second middle fuel) machine result after ↔
      ∃ middle between, Finishes first machine middle between ∧
        Finishes (second middle) between result after := by
  constructor
  · rintro ⟨fuel, finished⟩
    obtain ⟨middle, between, firstFinished, secondFinished⟩ :=
      (Action.finished_bind _ _).mp finished
    exact ⟨middle, between, ⟨fuel, firstFinished⟩, ⟨fuel, secondFinished⟩⟩
  · rintro ⟨middle, between, ⟨firstFuel, firstFinished⟩, ⟨secondFuel, secondFinished⟩⟩
    refine ⟨max firstFuel secondFuel, (Action.finished_bind _ _).mpr ⟨middle, between, ?_, ?_⟩⟩
    · exact Finishes.of_le firstStep firstFinished (Nat.le_max_left _ _)
    · exact Finishes.of_le (secondStep middle) secondFinished (Nat.le_max_right _ _)

theorem finishes_andFinally_iff (family : Nat → Action α) (change : Machine → Machine) :
    Finishes (fun fuel => andFinally (family fuel) change) machine result after ↔
      ∃ between, Finishes family machine result between ∧ after = change between := by
  constructor
  · rintro ⟨fuel, finished⟩
    obtain ⟨between, inner, rfl⟩ := (Action.finished_andFinally _ _).mp finished
    exact ⟨between, ⟨fuel, inner⟩, rfl⟩
  · rintro ⟨between, ⟨fuel, finished⟩, rfl⟩
    exact ⟨fuel, (Action.finished_andFinally _ _).mpr ⟨between, finished, rfl⟩⟩

end Families

section Rules

variable {maxDepth : Nat} {machine after : Machine} {value : Value}

theorem evaluate_approximates (maxDepth fuel : Nat) (expression : Expression) :
    approximating.Related (evaluate maxDepth fuel expression)
      (evaluate maxDepth (fuel + 1) expression) :=
  (evaluation_approximates maxDepth fuel).1 expression

theorem Evaluates.alike {expression : Expression}
    (evaluates : Evaluates maxDepth expression machine value after) : machine.Alike after := by
  obtain ⟨fuel, finished⟩ := evaluates
  exact evaluate_alike maxDepth fuel expression machine value after finished

/-- What stands at the node of an expression, whatever the fuel. -/
def NodeYields (maxDepth : Nat) (expression : Expression) : Machine → Value → Machine → Prop :=
  Finishes fun fuel =>
    expressionNode (evaluate maxDepth fuel) (execute maxDepth fuel) expression

theorem evaluates_iff {expression : Expression} :
    Evaluates maxDepth expression machine value after ↔
      machine.depth + 1 < maxDepth ∧ ∃ between,
        NodeYields maxDepth expression (machine.entered expression.span) value between ∧
        after = between.concluded value := by
  have step (fuel : Nat) :
      (evaluate maxDepth (fuel + 1) expression : Action Value) machine = .finished value after ↔
        machine.depth + 1 < maxDepth ∧ ∃ between,
          (expressionNode (evaluate maxDepth fuel) (execute maxDepth fuel) expression :
            Action Value) (machine.entered expression.span) = .finished value between ∧
          after = between.concluded value := by
    rw [evaluate]
    simp only [expressionStep, Action.finished_bind, Action.finished_enter,
      Action.finished_update, Action.finished_leave, Action.finished_pure]
    constructor
    · rintro ⟨_, _, ⟨shallow, rfl⟩, _, _, rfl, _, between, runs, _, _, rfl, _, _, rfl, rfl, rfl⟩
      exact ⟨shallow, between, runs, rfl⟩
    · rintro ⟨shallow, between, runs, rfl⟩
      exact ⟨(), _, ⟨shallow, rfl⟩, (), _, rfl, value, between, runs, (), _, rfl, (), _, rfl,
        rfl, rfl⟩
  constructor
  · rintro ⟨fuel, finished⟩
    cases fuel with
    | zero => cases finished
    | succ fuel =>
        obtain ⟨shallow, between, runs, ends⟩ := (step fuel).mp finished
        exact ⟨shallow, between, ⟨fuel, runs⟩, ends⟩
  · rintro ⟨shallow, between, ⟨fuel, runs⟩, ends⟩
    exact ⟨fuel + 1, (step fuel).mpr ⟨shallow, between, runs, ends⟩⟩

/-- A value that is used is evaluated under the flag of an expected value. -/
theorem yields_iff {expression : Expression} :
    Yields maxDepth expression machine value after ↔
      ∃ between, Evaluates maxDepth expression (machine.setFlags .onlyExpectValue) value between ∧
        after = if machine.current.innermostFlags.expectValue then between
          else between.unsetFlags .onlyExpectValue := by
  refine Iff.trans ?_ (finishes_andFinally_iff _ _)
  constructor
  · rintro ⟨fuel, finished⟩
    exact ⟨fuel, finished⟩
  · rintro ⟨fuel, finished⟩
    exact ⟨fuel, finished⟩

theorem evaluates_literal_iff {span : Span} {content : Value} :
    Evaluates maxDepth (.literal span content) machine value after ↔
      machine.depth + 1 < maxDepth ∧ value = content ∧
        after = (machine.entered span).concluded value := by
  have node {between : Machine} :
      NodeYields maxDepth (.literal span content) (machine.entered span) value between ↔
        content = value ∧ machine.entered span = between :=
    (finishes_const_iff _).trans (Action.finished_pure content)
  rw [evaluates_iff]
  constructor
  · rintro ⟨shallow, between, runs, rfl⟩
    obtain ⟨rfl, rfl⟩ := node.mp runs
    exact ⟨shallow, rfl, rfl⟩
  · rintro ⟨shallow, rfl, rfl⟩
    exact ⟨shallow, _, node.mpr ⟨rfl, rfl⟩, rfl⟩

/-- The name of a variable evaluates to what is stored under it. -/
theorem evaluates_identifier_iff {span : Span} {name : String} :
    Evaluates maxDepth (.identifier span name) machine value after ↔
      machine.depth + 1 < maxDepth ∧ machine.valueOf name = .ok value ∧
        after = (machine.entered span).concluded value := by
  have node {between : Machine} :
      NodeYields maxDepth (.identifier span name) (machine.entered span) value between ↔
        machine.valueOf name = .ok value ∧ machine.entered span = between := by
    rw [← Machine.valueOf_of_holdings_eq (machine.holdings_entered span) name]
    exact (finishes_const_iff _).trans (Action.finished_valueOf name)
  rw [evaluates_iff]
  constructor
  · rintro ⟨shallow, between, runs, rfl⟩
    obtain ⟨reads, rfl⟩ := node.mp runs
    exact ⟨shallow, reads, rfl⟩
  · rintro ⟨shallow, reads, rfl⟩
    exact ⟨shallow, _, node.mpr ⟨reads, rfl⟩, rfl⟩

/-- An assignment that succeeds stores the value, cast to the type of the variable that owns
the storage, at the owner that the name has before the value is evaluated. -/
theorem evaluates_assign_iff {span : Span} {target content : Expression} :
    Evaluates maxDepth (.assign span target content) machine value after ↔
      machine.depth + 1 < maxDepth ∧ ∃ name owner stored result between,
        target.name? = some name ∧ isReservedName name = false ∧
        machine.ownerOf? name = some (owner, stored) ∧ stored.declarator.isMutable = true ∧
        Yields maxDepth content (machine.entered span) result between ∧
        (between.stack.binding? owner).isSome = true ∧
        value = result.cast stored.declarator.type ∧
        after = (between.store owner value).concluded value := by
  have node {between : Machine} :
      NodeYields maxDepth (.assign span target content) (machine.entered span) value between ↔
        ∃ name owner stored result middle, target.name? = some name ∧
          isReservedName name = false ∧ machine.ownerOf? name = some (owner, stored) ∧
          stored.declarator.isMutable = true ∧
          Yields maxDepth content (machine.entered span) result middle ∧
          (middle.stack.binding? owner).isSome = true ∧
          value = result.cast stored.declarator.type ∧ between = middle.store owner value := by
    have sameOwner (name : String) : (machine.entered span).ownerOf? name = machine.ownerOf? name :=
      Machine.ownerOf?_of_holdings_eq (machine.holdings_entered span) name
    constructor
    · rintro ⟨fuel, finished⟩
      obtain ⟨name, owner, stored, result, middle, isName, free, owns, assignable, evaluates,
        rest⟩ := (Action.finished_assign _ _ _).mp finished
      rw [sameOwner] at owns
      exact ⟨name, owner, stored, result, middle, isName, free, owns, assignable,
        ⟨fuel, evaluates⟩, rest⟩
    · rintro ⟨name, owner, stored, result, middle, isName, free, owns, assignable,
        ⟨fuel, evaluates⟩, rest⟩
      rw [← sameOwner] at owns
      exact ⟨fuel, (Action.finished_assign _ _ _).mpr ⟨name, owner, stored, result, middle, isName,
        free, owns, assignable, evaluates, rest⟩⟩
  rw [evaluates_iff]
  constructor
  · rintro ⟨shallow, between, runs, rfl⟩
    obtain ⟨name, owner, stored, result, middle, isName, free, owns, assignable, yields, lives,
      isCast, rfl⟩ := node.mp runs
    exact ⟨shallow, name, owner, stored, result, middle, isName, free, owns, assignable, yields,
      lives, isCast, rfl⟩
  · rintro ⟨shallow, name, owner, stored, result, middle, isName, free, owns, assignable, yields,
      lives, isCast, rfl⟩
    exact ⟨shallow, _, node.mpr ⟨name, owner, stored, result, middle, isName, free, owns,
      assignable, yields, lives, isCast, rfl⟩, rfl⟩

end Rules

/-! ## Arguments -/

/-- The arguments are evaluated in order and become variables of the parameters. -/
def BindsArguments (maxDepth : Nat) (arguments : List Expression) (parameters : List Declarator) :
    Machine → List Variable → Machine → Prop :=
  Finishes fun fuel => bindArguments (evaluate maxDepth fuel) arguments parameters

theorem bindArguments_approximates (maxDepth fuel : Nat) (arguments : List Expression)
    (parameters : List Declarator) :
    approximating.Related (bindArguments (evaluate maxDepth fuel) arguments parameters)
      (bindArguments (evaluate maxDepth (fuel + 1)) arguments parameters) :=
  approximating.bindArguments (evaluate_approximates maxDepth fuel) arguments parameters

theorem BindsArguments.alike {maxDepth : Nat} {arguments : List Expression}
    {parameters : List Declarator} {machine after : Machine} {bound : List Variable}
    (binds : BindsArguments maxDepth arguments parameters machine bound after) :
    machine.Alike after := by
  obtain ⟨fuel, finished⟩ := binds
  exact bindArguments_alike (evaluate_alike maxDepth fuel) arguments parameters machine bound
    after finished

section Arguments

variable {maxDepth : Nat} {machine after : Machine} {bound : List Variable}

theorem bindsArguments_nil_iff {parameters : List Declarator} :
    BindsArguments maxDepth [] parameters machine bound after ↔ bound = [] ∧ after = machine := by
  have none {fuel : Nat} : (bindArguments (evaluate maxDepth fuel) [] parameters :
      Action (List Variable)) = pure [] := by
    rw [bindArguments]
    simp
  constructor
  · rintro ⟨fuel, finished⟩
    change (bindArguments (evaluate maxDepth fuel) [] parameters : Action (List Variable))
      machine = _ at finished
    rw [none, Action.finished_pure] at finished
    exact ⟨finished.1.symm, finished.2.symm⟩
  · rintro ⟨rfl, rfl⟩
    refine ⟨0, ?_⟩
    change (bindArguments (evaluate maxDepth 0) [] parameters : Action (List Variable)) after = _
    rw [none]
    rfl

theorem bindsArguments_cons_iff {argument : Expression} {arguments : List Expression}
    {parameter : Declarator} {parameters : List Declarator} :
    BindsArguments maxDepth (argument :: arguments) (parameter :: parameters) machine bound
        after ↔
      ∃ value between rest, Evaluates maxDepth argument machine value between ∧
        BindsArguments maxDepth arguments parameters between rest after ∧
        bound = bindParameter parameter (value.cast parameter.type)
          (machine.argumentSite? argument) :: rest := by
  let site := machine.argumentSite? argument
  have step (value : Value) (fuel : Nat) : approximating.Related
      (do
        let rest ← bindArguments (evaluate maxDepth fuel) arguments parameters
        return bindParameter parameter (value.cast parameter.type) site :: rest)
      (do
        let rest ← bindArguments (evaluate maxDepth (fuel + 1)) arguments parameters
        return bindParameter parameter (value.cast parameter.type) site :: rest) :=
    approximating.bind (bindArguments_approximates maxDepth fuel arguments parameters) fun _ =>
      approximating.pure _
  refine (finishes_bind_iff (evaluate_approximates maxDepth · argument) step).trans ?_
  refine exists_congr fun value => exists_congr fun between => ?_
  rw [exists_and_left]
  refine and_congr_right fun _ => ?_
  refine (finishes_bind_iff (bindArguments_approximates maxDepth · arguments parameters)
    fun rest _ => approximating.pure (bindParameter parameter (value.cast parameter.type) site ::
      rest)).trans ?_
  refine exists_congr fun rest => ?_
  constructor
  · rintro ⟨ended, binds, fuel, finished⟩
    obtain ⟨rfl, rfl⟩ := (Action.finished_pure _).mp finished
    exact ⟨binds, rfl⟩
  · rintro ⟨binds, rfl⟩
    exact ⟨after, binds, 0, rfl⟩

end Arguments

end Plainspoken
