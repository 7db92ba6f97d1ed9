import Plainspoken.Evaluation.Operator
import Plainspoken.Proofs.Numbers.Literals
import Plainspoken.Proofs.Termination
import Plainspoken.Proofs.TreeParts

/-!
# Finite values

A value is finite unless it is an infinite or undefined number.  Coercions give finite values
of finite ones.  The operators do so as well: arithmetic fails where its result is not finite,
and whatever else is computed is a text or a fact.

A machine holds finite values if the variables of all frames and the value that was evaluated
last are finite.  What it goes on to do depends on the literals in the bodies that were
declared on it, so that they have to be finite, too.
-/

namespace Plainspoken

open Evaluation

/-! ## Values -/

/-- The value is not an infinite or undefined number. -/
def Value.IsFinite : Value → Prop
  | .number amount => amount.isFinite = true
  | .text _ | .fact _ | .nothing => True

namespace Value.IsFinite

theorem asNumber? {value : Value} (isFinite : value.IsFinite) {amount : Float}
    (isNumber : value.asNumber? = some amount) : amount.isFinite = true := by
  cases value with
  | number own =>
    cases isNumber
    exact isFinite
  | text content => exact isFinite_of_numberOfText isNumber
  | fact holds =>
    cases isNumber
    cases holds <;> rfl
  | nothing => cases isNumber

theorem cast {value : Value} (isFinite : value.IsFinite) (valueType : ValueType) :
    (value.cast valueType).IsFinite := by
  cases valueType with
  | number =>
    unfold Value.cast
    cases isNumber : value.asNumber? with
    | none => trivial
    | some amount => exact isFinite.asNumber? isNumber
  | text =>
    unfold Value.cast
    cases value.asText? <;> trivial
  | fact =>
    unfold Value.cast
    cases value.asFact? <;> trivial
  | nothing => trivial
  | any => trivial

theorem ofFact? (holds : Option Bool) : (Value.ofFact? holds).IsFinite := by
  cases holds <;> trivial

theorem ofText? (content : Option String) : (content.elim .nothing .text : Value).IsFinite := by
  cases content <;> trivial

end Value.IsFinite

theorem UnaryOperator.isFinite_apply (operator : UnaryOperator) {operand : Value}
    (isFinite : operand.IsFinite) : (operator.apply operand).IsFinite := by
  cases operator with
  | negate =>
    unfold UnaryOperator.apply
    cases isNumber : operand.asNumber? with
    | none => trivial
    | some amount => exact Number.isFinite_neg (isFinite.asNumber? isNumber)
  | not => exact .ofFact? _

/-- Whatever the operands are, an operator gives no infinite or undefined number. -/
theorem BinaryOperator.isFinite_of_apply_eq_ok {operator : BinaryOperator}
    {left right value : Value} (applies : operator.apply left right = .ok value) :
    value.IsFinite := by
  cases operator with
  | arithmetic operation =>
    simp only [BinaryOperator.apply, ArithmeticOperator.applyToValues] at applies
    split at applies
    · cases applies
      trivial
    · split at applies
      · next isFinite =>
        cases applies
        exact isFinite
      · cases applies
  | concatenate =>
    cases applies
    exact .ofText? _
  | conjunction | disjunction | compare comparison | sameText | differentText =>
    cases applies
    exact .ofFact? _

/-- Control does not leave with an infinite or undefined number. -/
def Flow.IsFinite : Flow → Prop
  | .giveBack value => value.IsFinite
  | .normal | .skip | .stop => True

/-! ## Literals -/

/-- Every literal in the expression is finite. -/
def Expression.HasFiniteLiterals (expression : Expression) : Prop :=
  ∀ span amount, expression.IsPart (.literal span (.number amount)) → amount.isFinite = true

/-- Every literal in the statement, bodies that it declares included, is finite. -/
def Statement.HasFiniteLiterals (statement : Statement) : Prop :=
  ∀ span amount, statement.Holds (.literal span (.number amount)) → amount.isFinite = true

namespace Expression.HasFiniteLiterals

theorem of_parts {expression : Expression}
    (isNoNumber : ∀ span amount, expression ≠ .literal span (.number amount))
    (parts : ∀ part ∈ expression.parts, part.HasFiniteLiterals) :
    expression.HasFiniteLiterals := by
  intro span amount isPart
  obtain same | ⟨middle, member, inside⟩ := isPart.eq_or_of_part
  · exact absurd same.symm (isNoNumber span amount)
  · exact parts middle member span amount inside

theorem part {expression part : Expression} (finite : expression.HasFiniteLiterals)
    (member : part ∈ expression.parts) : part.HasFiniteLiterals :=
  fun span amount isPart => finite span amount (isPart.of_part member)

theorem of_literal (span : Span) {value : Value} (isFinite : value.IsFinite) :
    (Expression.literal span value).HasFiniteLiterals := by
  intro _ amount isPart
  obtain same | ⟨_, member, _⟩ := isPart.eq_or_of_part
  · cases same
    exact isFinite
  · cases member

theorem literal {span : Span} {value : Value}
    (finite : (Expression.literal span value).HasFiniteLiterals) : value.IsFinite := by
  cases value with
  | number amount => exact finite span amount .whole
  | _ => trivial

end Expression.HasFiniteLiterals

namespace Statement.HasFiniteLiterals

theorem of_parts {statement : Statement}
    (expressions : ∀ expression ∈ statement.expressions, expression.HasFiniteLiterals)
    (parts : ∀ part ∈ statement.parts, part.HasFiniteLiterals) :
    statement.HasFiniteLiterals := by
  rintro span amount ⟨holder, whole, isPart, stands, isLiteral⟩
  obtain rfl | ⟨middle, member, inside⟩ := isPart.eq_or_of_part
  · exact expressions whole stands span amount isLiteral
  · exact parts middle member span amount ⟨holder, whole, inside, stands, isLiteral⟩

theorem empty (span : Span) : (Statement.empty span).HasFiniteLiterals :=
  of_parts nofun nofun

variable {statement : Statement} (finite : statement.HasFiniteLiterals)

include finite

theorem part {part : Statement} (member : part ∈ statement.parts) : part.HasFiniteLiterals := by
  rintro span amount ⟨holder, whole, isPart, stands, isLiteral⟩
  exact finite span amount ⟨holder, whole, isPart.of_part member, stands, isLiteral⟩

theorem isPart {part : Statement} (isPart : statement.IsPart part) : part.HasFiniteLiterals := by
  induction isPart with
  | whole => exact finite
  | part _ member ih => exact ih.part member

theorem expression {expression : Expression} (stands : expression ∈ statement.expressions) :
    expression.HasFiniteLiterals :=
  fun span amount isPart => finite span amount ⟨statement, expression, .whole, stands, isPart⟩

end Statement.HasFiniteLiterals

/-! ## Machines -/

/-- The variables of a scope hold finite values, and the bodies declared in it have finite
literals. -/
structure Scope.HoldsFinite (scope : Scope) : Prop where
  bindings : ∀ binding ∈ scope.bindings, binding.value.IsFinite
  bodies : ∀ entry ∈ scope.entries, entry.callable.body.HasFiniteLiterals

namespace Scope.HoldsFinite

theorem empty (flags : Flags) : (Scope.withFlags flags).HoldsFinite :=
  ⟨List.forall_mem_nil _, List.forall_mem_nil _⟩

theorem library : Routine.library.HoldsFinite := by
  refine ⟨List.forall_mem_nil _, fun entry member => ?_⟩
  obtain ⟨routine, -, rfl⟩ := List.mem_map.mp member
  cases routine <;> exact .empty .beforeSource

variable {scope : Scope} (finite : scope.HoldsFinite)

include finite

theorem insertVariable {binding : Variable} (isFinite : binding.value.IsFinite) :
    (scope.insertVariable binding).HoldsFinite :=
  ⟨List.forall_mem_cons.mpr ⟨isFinite, fun other member =>
    finite.bindings other (List.mem_of_mem_filter member)⟩, finite.bodies⟩

theorem insertEntry {entry : Entry} (literals : entry.callable.body.HasFiniteLiterals) :
    (scope.insertEntry entry).HoldsFinite :=
  ⟨finite.bindings, List.forall_mem_cons.mpr ⟨literals, fun other member =>
    finite.bodies other (List.mem_of_mem_filter member)⟩⟩

theorem store (name : String) {value : Value} (isFinite : value.IsFinite) :
    (scope.modifyVariable name (·.store value)).HoldsFinite := by
  refine ⟨List.forall_mem_map.mpr fun binding member => ?_, finite.bodies⟩
  split
  · exact isFinite
  · exact finite.bindings binding member

end Scope.HoldsFinite

/-- The variables of all frames and the value evaluated last are finite, and so are the literals
in all bodies. -/
structure Machine.HoldsFinite (machine : Machine) : Prop where
  scopes : machine.Everywhere Scope.HoldsFinite
  lastValue : machine.lastValue.IsFinite

namespace Machine.HoldsFinite

theorem initial : Machine.initial.HoldsFinite := by
  refine ⟨fun frame member => ?_, trivial⟩
  rw [List.mem_singleton.mp member]
  exact List.forall_mem_cons.mpr ⟨.library, List.forall_mem_singleton.mpr (.empty .onlyCall)⟩

variable {machine : Machine} (finite : machine.HoldsFinite)

include finite

theorem scope {frame : Frame} (frameMember : frame ∈ machine.stack.frames) {scope : Scope}
    (member : scope ∈ frame.scopes) : scope.HoldsFinite :=
  finite.scopes frame frameMember scope member

theorem binding? {site : Site} {binding : Variable}
    (found : machine.stack.binding? site = some binding) : binding.value.IsFinite := by
  obtain ⟨frame, frameFound, inFrame⟩ := Option.bind_eq_some_iff.mp found
  obtain ⟨scope, scopeFound, inScope⟩ := Option.bind_eq_some_iff.mp inFrame
  rw [CallStack.frame?_eq] at frameFound
  exact (finite.scope (Height.mem_of_get?_eq_some frameFound)
    (Height.mem_of_get?_eq_some scopeFound)).bindings binding (List.mem_of_find?_eq_some inScope)

theorem valueOf {name : String} {value : Value} (reads : machine.valueOf name = .ok value) :
    value.IsFinite := by
  unfold Machine.valueOf at reads
  split at reads
  · cases reads
  · next owner binding found =>
    obtain ⟨site, -, found⟩ := Option.bind_eq_some_iff.mp found
    obtain ⟨stored, bindingFound, same⟩ := Option.bind_eq_some_iff.mp found
    cases same
    split at reads
    · cases reads
      exact finite.binding? bindingFound
    · cases reads

theorem resolve {name : String} {arity : Nat} {entry : Entry}
    (resolves : Evaluation.resolve machine name arity = .ok (some entry)) :
    entry.callable.body.HasFiniteLiterals := by
  obtain ⟨frame, frameMember, scope, member, declared⟩ := exists_mem_of_resolve resolves
  exact (finite.scope frameMember member).bodies entry declared

theorem noted (depth : Nat) {lastValue : Value} (isFinite : lastValue.IsFinite)
    (emitted : Transcript) : HoldsFinite ⟨machine.stack, depth, lastValue, emitted⟩ :=
  ⟨finite.scopes, isFinite⟩

theorem modifyCurrent {change : Frame → Frame}
    (changed : (change machine.current).Throughout Scope.HoldsFinite) :
    (machine.modifyCurrent change).HoldsFinite :=
  ⟨finite.scopes.modifyCurrent changed, finite.lastValue⟩

theorem mark (span : Span) : (machine.mark span).HoldsFinite :=
  finite.modifyCurrent finite.scopes.current

theorem setFlags (flags : Flags) : (machine.setFlags flags).HoldsFinite :=
  ⟨finite.scopes.modifyInnermost fun _ scope => ⟨scope.bindings, scope.bodies⟩, finite.lastValue⟩

theorem unsetFlags (flags : Flags) : (machine.unsetFlags flags).HoldsFinite :=
  ⟨finite.scopes.modifyInnermost fun _ scope => ⟨scope.bindings, scope.bodies⟩, finite.lastValue⟩

theorem pushScope {scope : Scope} (isFinite : scope.HoldsFinite) :
    (machine.pushScope scope).HoldsFinite :=
  ⟨finite.scopes.pushScope isFinite, finite.lastValue⟩

theorem popScope : machine.popScope.HoldsFinite :=
  ⟨finite.scopes.popScope, finite.lastValue⟩

theorem pushFrame {frame : Frame} (isFinite : frame.Throughout Scope.HoldsFinite) :
    (machine.pushFrame frame).HoldsFinite :=
  ⟨finite.scopes.pushFrame isFinite, finite.lastValue⟩

theorem popFrame : machine.popFrame.HoldsFinite :=
  ⟨finite.scopes.popFrame, finite.lastValue⟩

theorem store (site : Site) {value : Value} (isFinite : value.IsFinite) :
    (machine.store site value).HoldsFinite := by
  refine ⟨finite.scopes.store fun frame scope frameFound scopeFound => ?_, finite.lastValue⟩
  rw [CallStack.frame?_eq] at frameFound
  exact (finite.scope (Height.mem_of_get?_eq_some frameFound)
    (Height.mem_of_get?_eq_some scopeFound)).store _ isFinite

theorem declareVariable {binding : Variable} (isFinite : binding.value.IsFinite) {frame : Frame}
    (declares : machine.current.declareVariable binding = .ok frame) :
    frame.Throughout Scope.HoldsFinite := by
  unfold Frame.declareVariable at declares
  split at declares
  · cases declares
  · cases declares
    exact finite.scopes.current.modifyInnermost fun _ scope => scope.insertVariable isFinite

theorem declareCallable {declared : Callable} (literals : declared.body.HasFiniteLiterals) :
    (machine.current.declareCallable declared).2.Throughout Scope.HoldsFinite :=
  finite.scopes.current.declareCallable fun _ scope => scope.insertEntry literals

end Machine.HoldsFinite

/-! ## Frames of calls -/

theorem throughout_functionFrame (signature : FunctionSignature) (span : Span)
    {parameters : List Variable} (isFinite : ∀ parameter ∈ parameters, parameter.value.IsFinite) :
    (functionFrame signature span parameters).Throughout Scope.HoldsFinite := by
  have started : (Frame.start signature.name span signature.returns).Throughout
      Scope.HoldsFinite := List.forall_mem_singleton.mpr (.empty .empty)
  refine Frame.Throughout.modifyInnermost ?_ fun _ scope => ⟨scope.bindings, scope.bodies⟩
  exact started.foldl_insertVariable fun binding member _ scope =>
    scope.insertVariable (isFinite binding member)

theorem throughout_patternFrame (signature : PatternSignature) (span : Span) {value : Value}
    (isFinite : value.IsFinite) (site : Option Site) :
    (patternFrame signature span value site).Throughout Scope.HoldsFinite := by
  have started : (Frame.start signature.name span .nothing).Throughout Scope.HoldsFinite :=
    List.forall_mem_singleton.mpr (.empty .empty)
  have inserted {frame : Frame} (throughout : frame.Throughout Scope.HoldsFinite)
      {binding : Variable} (bindingFinite : binding.value.IsFinite) :
      (frame.insertVariable binding).Throughout Scope.HoldsFinite :=
    throughout.modifyInnermost fun _ scope => scope.insertVariable bindingFinite
  refine Frame.Throughout.modifyInnermost ?_ fun _ scope => ⟨scope.bindings, scope.bodies⟩
  exact inserted (inserted started isFinite) isFinite

end Plainspoken
