import Plainspoken.Proofs.Numbers.FiniteValues
import Plainspoken.Proofs.Reachability

/-!
# No infinity and no undefined number circulates

An evaluation that starts on a machine with finite values, and in a program whose literals are
finite, passes through machines with finite values only, and what it results in is finite.

Values are cast and bound, stored and read, remembered and given back, but only the reading of
literals and texts, negation and arithmetic give numbers that were not there before.
-/

namespace Plainspoken

open Stepping Evaluation

/-! ## Steps -/

/-- On a machine with finite values every machine passed has finite values, and a result that is
reached has a property. -/
def Tracing.StaysFinite {α : Type} (property : α → Prop) (traced : Tracing α) : Prop :=
  ∀ machine : Machine, machine.HoldsFinite →
    traced.Keeps Machine.HoldsFinite machine ∧
      traced.action.Ensures machine fun result _ => property result

namespace Tracing.StaysFinite

variable {α β : Type} {property : α → Prop}

theorem pure {result : α} (holds : property result) :
    StaysFinite property (Pure.pure result : Tracing α) :=
  fun machine finite => ⟨.pure result finite, (Action.ensures_pure result machine _).mpr holds⟩

theorem read {view : Machine → α}
    (holds : ∀ machine : Machine, machine.HoldsFinite → property (view machine)) :
    StaysFinite property (Stepping.read view : Tracing α) :=
  fun machine finite =>
    ⟨.read view finite, (Action.ensures_read view machine _).mpr (holds machine finite)⟩

/-- Reading something of which nothing has to be known. -/
theorem look (view : Machine → α) :
    StaysFinite (fun _ => True) (Stepping.read view : Tracing α) :=
  read fun _ _ => trivial

theorem update {change : Machine → Machine}
    (changed : ∀ machine : Machine, machine.HoldsFinite → (change machine).HoldsFinite) :
    StaysFinite (fun _ => True) (Stepping.update change : Tracing Unit) :=
  fun machine finite =>
    ⟨.update (changed machine finite), (Action.ensures_update change machine _).mpr trivial⟩

theorem halt (reason : Halt) : StaysFinite property (Stepping.halt reason : Tracing α) :=
  fun machine finite => ⟨.halt reason finite, Action.ensures_halt reason machine _⟩

theorem fail (cause : RuntimeCause) : StaysFinite property (Stepping.fail cause : Tracing α) :=
  halt (.failed cause)

theorem exhaust : StaysFinite property (Stepping.exhaust : Tracing α) :=
  fun machine _ => ⟨.exhaust, Action.ensures_exhaust machine _⟩

theorem bind {first : Tracing α} {second : α → Tracing β} {later : β → Prop}
    (firstFinite : StaysFinite property first)
    (secondFinite : ∀ result, property result → StaysFinite later (second result)) :
    StaysFinite later (first >>= second) := by
  intro machine finite
  obtain ⟨keeps, ensured⟩ := firstFinite machine finite
  have between {result : α} {after : Machine}
      (finished : first.action machine = .finished result after) : after.HoldsFinite := by
    have left := keeps.left
    change Outcome.Leaves (first.action machine) _ at left
    rwa [finished] at left
  constructor
  · exact keeps.bind fun result after finished afterFinite =>
      (secondFinite result (ensured result after finished) after afterFinite).1
  · rw [action_bind, Action.ensures_bind]
    exact fun result after finished =>
      (secondFinite result (ensured result after finished) after (between finished)).2

theorem andFinally {traced : Tracing α} {change : Machine → Machine}
    (stays : StaysFinite property traced)
    (changed : ∀ machine : Machine, machine.HoldsFinite → (change machine).HoldsFinite) :
    StaysFinite property (Stepping.andFinally traced change) := by
  intro machine finite
  obtain ⟨keeps, ensured⟩ := stays machine finite
  refine ⟨keeps.andFinally changed, ?_⟩
  rw [action_andFinally, Action.ensures_andFinally]
  exact ensured

theorem ofExcept {computed : Except RuntimeCause α}
    (holds : ∀ result, computed = .ok result → property result) :
    StaysFinite property (Stepping.ofExcept computed : Tracing α) := by
  cases computed with
  | ok result => exact pure (holds result rfl)
  | error cause => exact fail cause

theorem ofOption (cause : RuntimeCause) (found : Option α) :
    StaysFinite (fun _ => True) (Stepping.ofOption cause found : Tracing α) := by
  cases found with
  | some result => exact pure trivial
  | none => exact fail cause

theorem valueOf (name : String) :
    StaysFinite Value.IsFinite (Stepping.valueOf name : Tracing Value) :=
  bind (read fun _ finite _ reads => finite.valueOf reads) fun _ holds => ofExcept holds

theorem storeAt (site : Site) {value : Value} (isFinite : value.IsFinite) :
    StaysFinite (fun _ => True) (Stepping.storeAt site value : Tracing Unit) := by
  refine bind (look _) fun lives _ => ?_
  split
  · exact update fun _ finite => finite.store site isFinite
  · exact fail _

theorem enter (maxDepth : Nat) (span : Span) :
    StaysFinite (fun _ => True) (Stepping.enter maxDepth span : Tracing Unit) := by
  refine bind (update fun _ finite => finite.noted _ finite.lastValue _) fun _ _ =>
    bind (look _) fun tooDeep _ => ?_
  split
  · exact fail _
  · exact pure trivial

theorem leave : StaysFinite (fun _ => True) (Stepping.leave : Tracing Unit) :=
  update fun _ finite => finite.noted _ finite.lastValue _

theorem mark (span : Span) : StaysFinite (fun _ => True) (Stepping.update (·.mark span)) :=
  update fun _ finite => finite.mark span

theorem setFlags (flags : Flags) :
    StaysFinite (fun _ => True) (Stepping.update (·.setFlags flags)) :=
  update fun _ finite => finite.setFlags flags

theorem unsetFlags (flags : Flags) :
    StaysFinite (fun _ => True) (Stepping.update (·.unsetFlags flags)) :=
  update fun _ finite => finite.unsetFlags flags

theorem emit (emission : Emission) :
    StaysFinite (fun _ => True) (Stepping.update (·.emit emission)) :=
  update fun _ finite => finite.noted _ finite.lastValue _

end Tracing.StaysFinite

section Nodes

open Tracing

variable {evaluate : Expression → Tracing Value} {execute : Statement → Tracing Flow}
  (evaluated : ∀ expression, expression.HasFiniteLiterals →
    (evaluate expression).StaysFinite Value.IsFinite)
  (executed : ∀ statement, statement.HasFiniteLiterals →
    (execute statement).StaysFinite Flow.IsFinite)

/-! ## Expressions -/

include evaluated in
theorem usedValue_staysFinite {expression : Expression}
    (literals : expression.HasFiniteLiterals) :
    (usedValue evaluate expression).StaysFinite Value.IsFinite := by
  refine .bind (.look _) fun expected _ => .bind (.setFlags _) fun _ _ => ?_
  refine .andFinally (evaluated expression literals) fun machine finite => ?_
  cases expected with
  | true => exact finite
  | false => exact finite.unsetFlags _

include evaluated in
theorem condition_staysFinite {expression : Expression}
    (literals : expression.HasFiniteLiterals) :
    (condition evaluate expression).StaysFinite fun _ => True :=
  .bind (usedValue_staysFinite evaluated literals) fun _ _ => .ofOption _ _

include evaluated in
theorem pipe_staysFinite {span : Span} {first : Expression} {success failure : Option Expression}
    (literals : (Expression.pipe span first success failure).HasFiniteLiterals) :
    (pipe evaluate first success failure).StaysFinite Value.IsFinite := by
  have failureFinite : (pipeFailure evaluate failure).StaysFinite Value.IsFinite := by
    cases failure with
    | none => exact .pure trivial
    | some failure => exact evaluated failure (literals.part (by simp [Expression.parts]))
  have firstLiterals : first.HasFiniteLiterals := literals.part (by simp [Expression.parts])
  refine .bind (usedValue_staysFinite evaluated firstLiterals) fun carried isFinite =>
    .bind (.update fun _ finite => finite.pushScope ?_) fun _ _ =>
      .andFinally ?_ fun _ finite => finite.popScope
  · exact (Scope.HoldsFinite.empty .empty).insertVariable isFinite
  · unfold pipeParts
    split
    · exact failureFinite
    · cases success with
      | none => exact .pure trivial
      | some success =>
          have successLiterals : success.HasFiniteLiterals :=
            literals.part (by simp [Expression.parts])
          refine .bind (evaluated success successLiterals) fun value valueFinite => ?_
          split
          · exact failureFinite
          · exact .pure valueFinite

include evaluated in
theorem assign_staysFinite (target : Expression) {value : Expression}
    (literals : value.HasFiniteLiterals) :
    (assign evaluate target value).StaysFinite Value.IsFinite := by
  unfold assign
  split
  · exact .fail _
  · split
    · exact .fail _
    · refine .bind (.look _) fun found _ => ?_
      split
      · exact .fail _
      · next owner binding =>
        split
        · refine .bind (usedValue_staysFinite evaluated literals) fun value isFinite => ?_
          have castFinite := isFinite.cast binding.declarator.type
          exact .bind (.storeAt owner castFinite) fun _ _ => .pure castFinite
        · exact .fail _

/-! ## Calls -/

include evaluated in
theorem bindArguments_staysFinite {arguments : List Expression}
    (literals : ∀ argument ∈ arguments, argument.HasFiniteLiterals)
    (parameters : List Declarator) :
    (bindArguments evaluate arguments parameters).StaysFinite fun bound =>
      ∀ binding ∈ bound, binding.value.IsFinite := by
  induction arguments generalizing parameters with
  | nil => exact .pure (List.forall_mem_nil _)
  | cons argument arguments ih =>
      cases parameters with
      | nil => exact .pure (List.forall_mem_nil _)
      | cons parameter parameters =>
          obtain ⟨argumentLiterals, laterLiterals⟩ := List.forall_mem_cons.mp literals
          exact .bind (.look _) fun _ _ =>
            .bind (evaluated argument argumentLiterals) fun value isFinite =>
              .bind (ih laterLiterals parameters) fun bound boundFinite =>
                .pure (List.forall_mem_cons.mpr ⟨isFinite.cast _, boundFinite⟩)

/-- The assignments that a routine makes have no literal numbers. -/
theorem hasFiniteLiterals_assignHalf (span : Span) (name : String) (half : Option String) :
    (Expression.assign span (.identifier span name)
      (.literal span (half.elim .nothing .text))).HasFiniteLiterals := by
  have nameLiterals : (Expression.identifier span name).HasFiniteLiterals :=
    .of_parts nofun nofun
  have halfLiterals : (Expression.literal span (half.elim .nothing .text)).HasFiniteLiterals :=
    .of_literal span (.ofText? half)
  exact .of_parts nofun (List.forall_mem_cons.mpr
    ⟨nameLiterals, List.forall_mem_singleton.mpr halfLiterals⟩)

include evaluated in
theorem runRoutine_staysFinite (routine : Routine) :
    (runRoutine evaluate routine).StaysFinite Value.IsFinite := by
  have text (operation : String → Option String) :
      (textRoutine operation : Tracing Value).StaysFinite Value.IsFinite :=
    .bind (.valueOf "t") fun _ _ => .pure (.ofText? _)
  have split (operation : String → String × Option String) (left right : String) :
      (splitRoutine evaluate operation left right).StaysFinite Value.IsFinite :=
    .bind (.valueOf "source") fun _ _ => .bind (.look _) fun _ _ =>
      .bind (evaluated _ (hasFiniteLiterals_assignHalf _ _ _)) fun _ _ =>
        evaluated _ (hasFiniteLiterals_assignHalf _ _ _)
  cases routine with
  | print => exact .bind (.valueOf "t") fun _ _ => .bind (.emit _) fun _ _ => .pure trivial
  | quit => exact .halt .quit
  | first => exact text _
  | last => exact text _
  | body => exact text _
  | tail => exact text _
  | split => exact split _ _ _
  | backSplit => exact split _ _ _
  | fizzBuzz =>
      refine .bind (.valueOf "n") fun value _ => ?_
      cases value.asNumber? with
      | none => exact .pure trivial
      | some number => exact .bind (.emit _) fun _ _ => .pure trivial

include executed in
theorem runBody_staysFinite (signature : FunctionSignature) {body : Statement}
    (literals : body.HasFiniteLiterals) :
    (runBody execute signature body).StaysFinite Value.IsFinite := by
  have fallsThrough : (fallThrough signature : Tracing Value).StaysFinite Value.IsFinite := by
    have last : (Stepping.read (·.lastValue) : Tracing Value).StaysFinite Value.IsFinite :=
      .read fun _ finite => finite.lastValue
    unfold fallThrough
    split
    · exact last
    · exact .bind (.look _) fun _ _ => .bind (.emit _) fun _ _ => last
  refine .bind (executed body literals) fun flow isFinite => ?_
  cases flow with
  | giveBack value => exact .pure isFinite
  | normal => exact fallsThrough
  | skip => exact fallsThrough
  | stop => exact fallsThrough

include evaluated executed in
theorem callFunction_staysFinite (signature : FunctionSignature) {body : Statement}
    (bodyLiterals : body.HasFiniteLiterals) (routine : Option Routine)
    {arguments : List Expression}
    (literals : ∀ argument ∈ arguments, argument.HasFiniteLiterals) (span : Span) :
    (callFunction evaluate execute signature body routine arguments span).StaysFinite
      Value.IsFinite := by
  refine .bind (.look _) fun expected _ => ?_
  split
  · exact .fail _
  · refine .bind (bindArguments_staysFinite evaluated literals signature.parameters)
      fun parameters isFinite => .bind (.mark span) fun _ _ =>
        .bind (.update fun _ finite => finite.pushFrame ?_) fun _ _ => ?_
    · exact throughout_functionFrame signature span isFinite
    · have closes (value : Value) (valueFinite : value.IsFinite) :
          StaysFinite Value.IsFinite (do
            update (·.popFrame)
            return if signature.returns = .nothing then .nothing else value) := by
        refine .bind (.update fun _ finite => finite.popFrame) fun _ _ => .pure ?_
        split
        · trivial
        · exact valueFinite
      cases routine with
      | none => exact .bind (runBody_staysFinite executed signature bodyLiterals) closes
      | some routine => exact .bind (runRoutine_staysFinite evaluated routine) closes

include evaluated executed in
theorem callPattern_staysFinite (signature : PatternSignature) {body : Statement}
    (bodyLiterals : body.HasFiniteLiterals) (routine : Option Routine) {argument : Expression}
    (literals : argument.HasFiniteLiterals) (span : Span) :
    (callPattern evaluate execute signature body routine argument span).StaysFinite
      Value.IsFinite := by
  refine .bind (.look _) fun site _ =>
    .bind (usedValue_staysFinite evaluated literals) fun value isFinite =>
      .bind (.mark span) fun _ _ =>
        .bind (.update fun _ finite => finite.pushFrame ?_) fun _ _ => ?_
  · exact throughout_patternFrame signature span (isFinite.cast _) site
  · have closes : StaysFinite Value.IsFinite (do
        update (·.popFrame)
        return .nothing) :=
      .bind (.update fun _ finite => finite.popFrame) fun _ _ => .pure trivial
    cases routine with
    | none => exact .bind (executed body bodyLiterals) fun _ _ => closes
    | some routine => exact .bind (runRoutine_staysFinite evaluated routine) fun _ _ => closes

include evaluated executed in
theorem call_staysFinite (name : String) {arguments : List Expression}
    (literals : ∀ argument ∈ arguments, argument.HasFiniteLiterals) (span : Span) :
    (call evaluate execute name arguments span).StaysFinite Value.IsFinite := by
  have resolves : StaysFinite
      (fun resolved => ∀ entry, resolved = .ok (some entry) →
        entry.callable.body.HasFiniteLiterals)
      (Stepping.read (resolve · name arguments.length)) :=
    .read fun _ finite _ found => finite.resolve found
  have checked {resolved : Except RuntimeCause (Option Entry)}
      (found : ∀ entry, resolved = .ok (some entry) →
        entry.callable.body.HasFiniteLiterals) :
      StaysFinite (fun entry? => ∀ entry ∈ entry?, entry.callable.body.HasFiniteLiterals)
        (Stepping.ofExcept resolved) :=
    .ofExcept fun entry? isOk entry isEntry => found entry (by rw [isOk, Option.mem_def.mp isEntry])
  refine .bind resolves fun resolved found => .bind (checked found) fun entry? bodies => ?_
  cases entry? with
  | none => exact .fail _
  | some entry =>
      obtain ⟨callable, routine⟩ := entry
      have bodyLiterals := bodies _ rfl
      cases callable with
      | function signature body =>
          exact callFunction_staysFinite evaluated executed signature bodyLiterals routine
            literals span
      | pattern signature body =>
          cases arguments with
          | nil => exact .pure trivial
          | cons argument _ =>
              exact callPattern_staysFinite evaluated executed signature bodyLiterals routine
                (literals argument List.mem_cons_self) span

include evaluated executed in
theorem expressionStep_staysFinite (maxDepth : Nat) {expression : Expression}
    (literals : expression.HasFiniteLiterals) :
    (expressionStep evaluate execute maxDepth expression).StaysFinite Value.IsFinite := by
  have node : (expressionNode evaluate execute expression).StaysFinite Value.IsFinite := by
    cases expression with
    | literal span value => exact .pure literals.literal
    | identifier span name => exact .valueOf name
    | unary span operator operand =>
        have operandLiterals := literals.part List.mem_cons_self
        exact .bind (usedValue_staysFinite evaluated operandLiterals) fun _ isFinite =>
          .pure (operator.isFinite_apply isFinite)
    | binary span operator left right =>
        obtain ⟨leftLiterals, rightLiterals⟩ :
            left.HasFiniteLiterals ∧ right.HasFiniteLiterals :=
          ⟨literals.part (by simp [Expression.parts]), literals.part (by simp [Expression.parts])⟩
        exact .bind (usedValue_staysFinite evaluated leftLiterals) fun _ _ =>
          .bind (usedValue_staysFinite evaluated rightLiterals) fun _ _ =>
            .ofExcept fun _ applies => BinaryOperator.isFinite_of_apply_eq_ok applies
    | ternary span test yes no =>
        have testLiterals : test.HasFiniteLiterals := literals.part (by simp [Expression.parts])
        refine .bind (condition_staysFinite evaluated testLiterals) fun holds _ => ?_
        split
        · exact evaluated yes (literals.part (by simp [Expression.parts]))
        · cases no with
          | none => exact .pure trivial
          | some no => exact evaluated no (literals.part (by simp [Expression.parts]))
    | pipe span first success failure => exact pipe_staysFinite evaluated literals
    | noneTest span operand =>
        have operandLiterals := literals.part List.mem_cons_self
        exact .bind (usedValue_staysFinite evaluated operandLiterals) fun _ _ => .pure trivial
    | assign span target value =>
        exact assign_staysFinite evaluated target (literals.part (by simp [Expression.parts]))
    | call span name arguments =>
        exact call_staysFinite evaluated executed name (fun _ member => literals.part member) span
  exact .bind (.enter maxDepth _) fun _ _ => .bind (.mark _) fun _ _ =>
    .bind node fun _ isFinite => .bind .leave fun _ _ =>
      .bind (.update fun _ finite => finite.noted _ isFinite _) fun _ _ => .pure isFinite

/-! ## Statements -/

theorem addVariable_staysFinite {binding : Variable} (isFinite : binding.value.IsFinite) :
    (addVariable binding : Tracing Unit).StaysFinite fun _ => True := by
  have declares : StaysFinite
      (fun declared => ∀ frame, declared = .ok frame → frame.Throughout Scope.HoldsFinite)
      (Stepping.read (·.current.declareVariable binding)) :=
    .read fun _ finite _ declares => finite.declareVariable isFinite declares
  refine .bind declares fun declared throughout => ?_
  cases declared with
  | ok frame => exact .update fun machine finite => finite.modifyCurrent (throughout frame rfl)
  | error cause => exact .fail _

include evaluated in
theorem declareVariable_staysFinite (declarator : Declarator) {initial : Option Expression}
    (literals : ∀ value ∈ initial, value.HasFiniteLiterals) :
    (declareVariable evaluate declarator initial).StaysFinite fun _ => True := by
  unfold declareVariable
  split
  · exact .fail _
  · have added {binding : Variable} (isFinite : binding.value.IsFinite) :
        StaysFinite (fun _ => True) (do
          let binding ← (return binding : Tracing Variable)
          addVariable binding) :=
      .bind (.pure isFinite) fun _ bindingFinite => addVariable_staysFinite bindingFinite
    cases initial with
    | none => exact added trivial
    | some initial =>
        exact .bind (usedValue_staysFinite evaluated (literals initial rfl)) fun _ isFinite =>
          added (isFinite.cast declarator.type)

theorem declareCallable_staysFinite {declared : Callable}
    (literals : declared.body.HasFiniteLiterals) :
    (declareCallable declared : Tracing Unit).StaysFinite fun _ => True := by
  have declares : StaysFinite
      (fun result : Except RuntimeCause Unit × Frame =>
        result.2.Throughout Scope.HoldsFinite)
      (Stepping.read (·.current.declareCallable declared)) :=
    .read fun _ finite => finite.declareCallable literals
  exact .bind (.look _) fun _ _ => .bind (.ofExcept fun _ _ => trivial) fun _ _ =>
    .bind declares fun _ throughout =>
      .bind (.update fun _ finite => finite.modifyCurrent throughout) fun _ _ =>
        .ofExcept fun _ _ => trivial

include executed in
theorem block_staysFinite {statements : List Statement}
    (literals : ∀ statement ∈ statements, statement.HasFiniteLiterals) :
    (block execute statements).StaysFinite Flow.IsFinite := by
  induction statements with
  | nil => exact .pure trivial
  | cons statement statements ih =>
      obtain ⟨firstLiterals, laterLiterals⟩ := List.forall_mem_cons.mp literals
      refine .bind (executed statement firstLiterals) fun flow isFinite => ?_
      cases flow with
      | normal =>
          refine .bind (.look _) fun ended _ => ?_
          split
          · exact .pure trivial
          · exact ih laterLiterals
      | skip => exact .pure trivial
      | stop => exact .pure trivial
      | giveBack value => exact .pure isFinite

include evaluated executed in
theorem conditional_staysFinite {span : Span} {test : Expression} {positive : Statement}
    {negative : Option Statement}
    (literals : (Statement.conditional span test positive negative).HasFiniteLiterals) :
    (conditional evaluate execute test positive negative).StaysFinite Flow.IsFinite := by
  have testLiterals : test.HasFiniteLiterals := literals.expression List.mem_cons_self
  refine .bind (condition_staysFinite evaluated testLiterals) fun holds _ => ?_
  split
  · exact .bind (.setFlags _) fun _ _ => executed positive (literals.part List.mem_cons_self)
  · refine .bind (.unsetFlags _) fun _ _ => ?_
    cases negative with
    | none => exact .pure trivial
    | some negative => exact executed negative (literals.part (by simp [Statement.parts]))

include evaluated executed in
theorem loopStep_staysFinite {again : Expression → Statement → Tracing Flow}
    (repeated : ∀ test body, test.HasFiniteLiterals → body.HasFiniteLiterals →
      (again test body).StaysFinite Flow.IsFinite)
    {test : Expression} {body : Statement} (testLiterals : test.HasFiniteLiterals)
    (bodyLiterals : body.HasFiniteLiterals) :
    (loopStep evaluate execute again test body).StaysFinite Flow.IsFinite := by
  have ends {flow : Flow} (isFinite : flow.IsFinite) : StaysFinite Flow.IsFinite (do
      update (·.unsetFlags .onlyLoop)
      return flow) :=
    .bind (.unsetFlags _) fun _ _ => .pure isFinite
  refine .bind (condition_staysFinite evaluated testLiterals) fun holds _ => ?_
  split
  · refine .bind (.setFlags _) fun _ _ => .bind (executed body bodyLiterals) fun flow isFinite => ?_
    cases flow with
    | normal => exact repeated test body testLiterals bodyLiterals
    | skip => exact repeated test body testLiterals bodyLiterals
    | stop => exact ends trivial
    | giveBack value => exact ends isFinite
  · exact ends trivial

theorem loopJump_staysFinite (flow : Flow) (isFinite : flow.IsFinite) (illegal : RuntimeCause) :
    (loopJump flow illegal : Tracing Flow).StaysFinite Flow.IsFinite := by
  refine .bind (.look _) fun frame _ => ?_
  split
  · exact .fail _
  · split
    · exact .pure isFinite
    · exact .fail _

include evaluated in
theorem giveBack_staysFinite {value : Option Expression}
    (literals : ∀ given ∈ value, given.HasFiniteLiterals) :
    (giveBack evaluate value).StaysFinite Flow.IsFinite := by
  refine .bind (.look _) fun frame _ => ?_
  split
  · exact .fail _
  · split
    · exact .fail _
    · split
      · exact .fail _
      · exact .pure trivial
      · exact .fail _
      · exact .bind (usedValue_staysFinite evaluated (literals _ rfl)) fun _ isFinite =>
          .pure (isFinite.cast _)

include evaluated executed in
theorem statementStep_staysFinite {rounds : Expression → Statement → Tracing Flow}
    (repeated : ∀ test body, test.HasFiniteLiterals → body.HasFiniteLiterals →
      (rounds test body).StaysFinite Flow.IsFinite)
    (maxDepth : Nat) {statement : Statement} (literals : statement.HasFiniteLiterals) :
    (statementStep evaluate execute rounds maxDepth statement).StaysFinite Flow.IsFinite := by
  have node : (statementNode evaluate execute rounds statement).StaysFinite Flow.IsFinite := by
    cases statement with
    | expression content =>
        have contentLiterals := literals.expression List.mem_cons_self
        exact .bind (evaluated content contentLiterals) fun _ _ => .pure trivial
    | «variable» declarator initial =>
        exact .bind (declareVariable_staysFinite evaluated declarator fun value isInitial =>
          literals.expression (Option.mem_toList.mpr isInitial)) fun _ _ => .pure trivial
    | function signature body =>
        have bodyLiterals := literals.part List.mem_cons_self
        exact .bind (declareCallable_staysFinite bodyLiterals) fun _ _ => .pure trivial
    | pattern signature body =>
        have bodyLiterals := literals.part List.mem_cons_self
        exact .bind (declareCallable_staysFinite bodyLiterals) fun _ _ => .pure trivial
    | compound span children =>
        refine .bind (.update fun _ finite => finite.pushScope (.empty .empty)) fun _ _ =>
          .andFinally ?_ fun _ finite => finite.popScope
        exact block_staysFinite executed fun _ member => literals.part member
    | conditional span test positive negative =>
        exact conditional_staysFinite evaluated executed literals
    | loop span test body =>
        exact repeated test body (literals.expression List.mem_cons_self)
          (literals.part List.mem_cons_self)
    | skip span => exact loopJump_staysFinite .skip trivial _
    | stop span => exact loopJump_staysFinite .stop trivial _
    | giveBack span value =>
        exact giveBack_staysFinite evaluated fun given isGiven =>
          literals.expression (Option.mem_toList.mpr isGiven)
    | matching span subject body =>
        have subjectLiterals : subject.HasFiniteLiterals := literals.expression List.mem_cons_self
        refine .bind (usedValue_staysFinite evaluated subjectLiterals) fun value isFinite =>
          .bind (.update fun _ finite => finite.pushScope ?_) fun _ _ =>
            .andFinally (executed body (literals.part List.mem_cons_self))
              fun _ finite => finite.popScope
        exact (Scope.HoldsFinite.empty .onlyMatching).insertVariable isFinite
    | empty span => exact .pure trivial
  exact .bind (.enter maxDepth _) fun _ _ => .bind (.mark _) fun _ _ =>
    .bind node fun _ isFinite => .bind .leave fun _ _ => .pure isFinite

end Nodes

/-! ## Whole evaluations -/

/-- Evaluation keeps values finite if the literals are. -/
theorem evaluation_staysFinite (maxDepth fuel : Nat) :
    (∀ expression, expression.HasFiniteLiterals →
      (evaluate maxDepth fuel expression : Tracing Value).StaysFinite Value.IsFinite) ∧
    (∀ statement, statement.HasFiniteLiterals →
      (execute maxDepth fuel statement : Tracing Flow).StaysFinite Flow.IsFinite) ∧
    (∀ test body, test.HasFiniteLiterals → body.HasFiniteLiterals →
      (executeRounds maxDepth fuel test body : Tracing Flow).StaysFinite Flow.IsFinite) := by
  induction fuel with
  | zero => exact ⟨fun _ _ => .exhaust, fun _ _ => .exhaust, fun _ _ _ _ => .exhaust⟩
  | succ fuel ih =>
      obtain ⟨evaluated, executed, repeated⟩ := ih
      refine ⟨fun expression literals => ?_, fun statement literals => ?_,
        fun test body testLiterals bodyLiterals => ?_⟩
      · exact expressionStep_staysFinite evaluated executed maxDepth literals
      · exact statementStep_staysFinite evaluated executed repeated maxDepth literals
      · exact loopStep_staysFinite evaluated executed repeated testLiterals bodyLiterals

theorem Machine.HoldsFinite.execute {machine : Machine} (finite : machine.HoldsFinite)
    {statement : Statement} (literals : statement.HasFiniteLiterals) (maxDepth fuel : Nat) :
    ((execute maxDepth fuel statement : Action Flow) machine).Leaves Machine.HoldsFinite := by
  rw [← Tracing.action_execute]
  exact ((evaluation_staysFinite maxDepth fuel).2.1 statement literals machine finite).1.left

theorem Machine.HoldsFinite.evaluate {machine : Machine} (finite : machine.HoldsFinite)
    {expression : Expression} (literals : expression.HasFiniteLiterals) (maxDepth fuel : Nat) :
    ((evaluate maxDepth fuel expression : Action Value) machine).Leaves
      Machine.HoldsFinite := by
  rw [← Tracing.action_evaluate]
  exact ((evaluation_staysFinite maxDepth fuel).1 expression literals machine finite).1.left

/-! ## Sessions -/

/-- The sessions that a sequence of requests leads to, if what is performed and evaluated on the
live machine has finite literals. -/
inductive Session.ReachedFinitely : Session → Prop where
  | start (limits : Limits) : ReachedFinitely (.start limits)
  | build {session : Session} (reached : session.ReachedFinitely) (source : String) :
      ReachedFinitely (session.build source).2
  | reset {session : Session} (reached : session.ReachedFinitely) :
      ReachedFinitely session.reset
  | run {session after : Session} {fuel : Nat} {result : Except RuntimeError Unit}
      (reached : session.ReachedFinitely) (runs : session.run? fuel = some (result, after)) :
      ReachedFinitely after
  | perform {session : Session} {fuel : Nat} {statements : List Statement}
      {performance : Session.Performance} {machine : Machine}
      (reached : session.ReachedFinitely)
      (literals : ∀ statement ∈ statements, statement.HasFiniteLiterals)
      (performs : Session.performOn? session.limits.maxDepth fuel statements session.machine =
        some (performance, machine)) :
      ReachedFinitely { session with machine := machine }
  | evaluate {session after : Session} {fuel : Nat} {expression : Expression}
      {result : Except Halt Value} (reached : session.ReachedFinitely)
      (literals : expression.HasFiniteLiterals)
      (evaluates : session.evaluate? fuel expression = some (result, after)) :
      ReachedFinitely after
  | takeEmitted {session : Session} (reached : session.ReachedFinitely) :
      ReachedFinitely session.takeEmitted.2

theorem Machine.HoldsFinite.performOn? {maxDepth fuel : Nat} {statements : List Statement}
    {machine after : Machine} {performance : Session.Performance} (finite : machine.HoldsFinite)
    (literals : ∀ statement ∈ statements, statement.HasFiniteLiterals)
    (performs : Session.performOn? maxDepth fuel statements machine =
      some (performance, after)) : after.HoldsFinite := by
  induction statements generalizing machine performance with
  | nil =>
      cases performs
      exact finite
  | cons statement statements ih =>
      obtain ⟨firstLiterals, laterLiterals⟩ := List.forall_mem_cons.mp literals
      have left := finite.execute firstLiterals maxDepth fuel
      rw [Session.performOn?] at performs
      split at performs
      · next flow between finished =>
        rw [finished] at left
        obtain ⟨⟨rest, ending⟩, restPerforms, same⟩ := Option.map_eq_some_iff.mp performs
        cases same
        exact ih left laterLiterals restPerforms
      · next halt between halted =>
        rw [halted] at left
        cases performs
        exact left
      · cases performs

theorem Machine.HoldsFinite.reset (machine : Machine) : machine.reset.HoldsFinite :=
  initial.noted _ initial.lastValue _

/-- Between its requests such a session rests on a machine with finite values. -/
theorem Session.ReachedFinitely.holdsFinite {session : Session}
    (reached : session.ReachedFinitely) : session.machine.HoldsFinite := by
  induction reached with
  | start limits => exact .initial
  | build reached source ih =>
      unfold Session.build
      split
      · exact ih
      · exact ih.noted _ ih.lastValue _
  | reset reached ih => exact .reset _
  | run reached runs ih =>
      obtain rfl | ⟨machine, rfl⟩ := Session.run?_resets runs
      · exact ih
      · exact .reset machine
  | perform reached literals performs ih => exact ih.performOn? literals performs
  | @evaluate session after fuel expression result reached literals evaluates ih =>
      have left := ih.evaluate literals session.limits.maxDepth fuel
      unfold Session.evaluate? at evaluates
      dsimp only at evaluates
      split at evaluates
      · next value between finished =>
        rw [finished] at left
        cases evaluates
        exact left
      · next halt between halted =>
        rw [halted] at left
        cases evaluates
        exact left
      · cases evaluates
  | takeEmitted reached ih => exact ih.noted _ ih.lastValue _

private theorem Machine.HoldsFinite.mem_bindings {machine : Machine} (finite : machine.HoldsFinite)
    {frame : Frame} (frameMember : frame ∈ machine.stack.frames) {binding : Variable}
    (member : binding ∈ frame.bindings) : binding.value.IsFinite := by
  obtain ⟨scope, scopeMember, inScope⟩ := List.mem_flatMap.mp member
  exact (finite.scope frameMember scopeMember).bindings binding inScope

/-- While a program with finite literals runs, no infinite and no undefined number is held in a
variable of any frame, those of calls to the standard library included, or as the value that
was evaluated last; the run leaves none there, however it ends; and on no machine on the way
does a part of the program, or of a body that can be called there, give back such a number. -/
theorem numbers_stay_finite {session : Session} (reached : session.ReachedFinitely)
    {program : Statement}
    (literals : ∀ span amount, program.Holds (.literal span (.number amount)) →
      amount.isFinite = true) (fuel : Nat) :
    let trace := (execute session.limits.maxDepth fuel program : Tracing Flow) session.machine
    let Finite (machine : Machine) : Prop :=
      (∀ frame ∈ machine.stack.frames, ∀ binding ∈ frame.bindings, binding.value.IsFinite) ∧
        machine.lastValue.IsFinite
    (∀ machine ∈ session.machine :: trace.passed, Finite machine) ∧
    ((execute session.limits.maxDepth fuel program : Action Flow) session.machine).Leaves Finite ∧
    ∀ machine ∈ session.machine :: trace.passed, ∀ statement,
      (program.IsPart statement ∨ ∃ frame ∈ machine.stack.frames, ∃ scope ∈ frame.scopes,
        ∃ entry ∈ scope.entries, entry.callable.body.IsPart statement) →
      ∀ more value after, (execute session.limits.maxDepth more statement : Action Flow) machine =
        .finished (.giveBack value) after → value.IsFinite := by
  intro trace Finite
  have start := reached.holdsFinite
  have weakened (machine : Machine) (finite : machine.HoldsFinite) : Finite machine :=
    ⟨fun _ frameMember _ member => finite.mem_bindings frameMember member, finite.lastValue⟩
  have passed : ∀ machine ∈ session.machine :: trace.passed, machine.HoldsFinite :=
    List.forall_mem_cons.mpr ⟨start, ((evaluation_staysFinite _ fuel).2.1 program literals
      session.machine start).1.passed⟩
  refine ⟨fun machine member => weakened machine (passed machine member), ?_, ?_⟩
  · exact (start.execute literals _ fuel).mono weakened
  · intro machine member statement runs more value after finished
    have finite := passed machine member
    have statementLiterals : statement.HasFiniteLiterals := by
      obtain isPart | ⟨frame, frameMember, scope, scopeMember, entry, declared, isPart⟩ := runs
      · exact Statement.HasFiniteLiterals.isPart literals isPart
      · exact ((finite.scope frameMember scopeMember).bodies entry declared).isPart isPart
    have ensured := ((evaluation_staysFinite session.limits.maxDepth more).2.1 statement
      statementLiterals machine finite).2
    rw [Tracing.action_execute] at ensured
    exact ensured _ after finished

/-- What a function gives back is negated and passed to a routine.  In the middle of that call,
as everywhere else, the numbers held are finite. -/
theorem numbers_stay_finite_in_a_routine :
    let place : Span := .firstCharacter
    let program : Statement := .compound place
      [.function ⟨place, "F", false, [], .number⟩
        (.giveBack place (some (.literal place (.number 7.5)))),
        .expression (.call place Routine.fizzBuzz.name
          [.unary place .negate (.call place "F" [])])]
    let session := Session.start .standard
    ∃ machine ∈ ((execute session.limits.maxDepth 12 program : Tracing Flow)
        session.machine).passed,
      machine.current.bindings.map (fun binding => (binding.name, binding.value)) =
        [("n", .number (-7.5)), (subjectName, .number (-7.5))] ∧
      (∀ frame ∈ machine.stack.frames, ∀ binding ∈ frame.bindings, binding.value.IsFinite) ∧
      machine.lastValue.IsFinite := by
  intro place program session
  have literals : program.HasFiniteLiterals := by
    have given : (Expression.literal place (.number 7.5)).HasFiniteLiterals := .of_literal place rfl
    have called : (Expression.call place "F" []).HasFiniteLiterals := .of_parts nofun nofun
    have passed : (Expression.unary place .negate (.call place "F" [])).HasFiniteLiterals :=
      .of_parts nofun (List.forall_mem_singleton.mpr called)
    refine .of_parts nofun (List.forall_mem_cons.mpr ⟨?_, List.forall_mem_singleton.mpr ?_⟩)
    · exact .of_parts nofun (List.forall_mem_singleton.mpr
        (.of_parts (List.forall_mem_singleton.mpr given) nofun))
    · exact .of_parts (List.forall_mem_singleton.mpr
        (.of_parts nofun (List.forall_mem_singleton.mpr passed))) nofun
  have evaluated : ((execute session.limits.maxDepth 12 program : Tracing Flow)
      session.machine).passed.any (fun machine => decide (machine.current.bindings.map
        (fun binding => (binding.name, binding.value)) =
          [("n", .number (-7.5)), (subjectName, .number (-7.5))])) = true := by
    decide +kernel
  obtain ⟨machine, member, holdings⟩ := List.any_eq_true.mp evaluated
  exact ⟨machine, member, of_decide_eq_true holdings,
    (numbers_stay_finite (.start .standard) literals 12).1 machine
      (List.mem_cons_of_mem _ member)⟩

end Plainspoken
