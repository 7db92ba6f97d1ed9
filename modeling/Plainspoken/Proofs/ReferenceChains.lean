import Plainspoken.Proofs.CallerLocals
import Plainspoken.Proofs.DistinctNames
import Plainspoken.Proofs.ExpressionRules
import Plainspoken.Proofs.Stepwise

/-!
# References that are passed on

A call may pass the name of one of its own parameters on to a further call, and so on.
When a parameter that may be assigned is bound, it takes over what its argument refers to,
so that on every level the parameter refers to the variable with which the first call was
made, and never to the parameter of the level below.

What a level does in between makes no difference to this: the reference is kept by the
parameter itself, and no other variable of its frame can have its name.
-/

namespace Plainspoken

open Stepping Evaluation

/-! ## The parameters of a frame -/

namespace Scope

theorem binding?_insertVariable (scope : Scope) (binding : Variable) (name : String) :
    (scope.insertVariable binding).binding? name =
      if binding.name = name then some binding else scope.binding? name := by
  unfold binding? insertVariable
  by_cases same : binding.name = name
  · rw [List.find?_cons_of_pos (by simpa using same), if_pos same]
  · have others : (fun other : Variable =>
        decide ((other.name != binding.name) = true ∧ (other.name == name) = true)) =
        fun other => other.name == name := by
      funext other
      by_cases isName : other.name = name
      · simp [isName, Ne.symm same]
      · simp [isName]
    rw [List.find?_cons_of_neg (by simpa using same), List.find?_filter, others, if_neg same]

theorem binding?_foldl_insertVariable {parameters : List Variable}
    (distinct : (parameters.map Variable.name).Nodup) (scope : Scope) {binding : Variable}
    (member : binding ∈ parameters) :
    (parameters.foldl insertVariable scope).binding? binding.name = some binding := by
  have unchanged (parameters : List Variable) (scope : Scope) {name : String}
      (unused : name ∉ parameters.map Variable.name) :
      (parameters.foldl insertVariable scope).binding? name = scope.binding? name := by
    induction parameters generalizing scope with
    | nil => rfl
    | cons first others ih =>
        obtain ⟨notFirst, notOther⟩ := not_or.mp (mt List.mem_cons.mpr unused)
        rw [List.foldl_cons, ih _ notOther, binding?_insertVariable, if_neg (Ne.symm notFirst)]
  induction parameters generalizing scope with
  | nil => cases member
  | cons first others ih =>
      obtain ⟨isNew, distinct⟩ := List.nodup_cons.mp distinct
      rw [List.foldl_cons]
      rcases List.mem_cons.mp member with rfl | isOther
      · rw [unchanged others _ isNew, binding?_insertVariable, if_pos rfl]
      · exact ih distinct _ isOther

end Scope

namespace Frame

@[simp]
theorem binding?_setFlags (frame : Frame) (flags : Flags) (level : Nat) (name : String) :
    (frame.setFlags flags).binding? level name = frame.binding? level name :=
  binding?_of_map_bindings_eq (frame.holdings_setFlags flags) level name

/-- Parameters of different names are all there. -/
theorem binding?_functionFrame (signature : FunctionSignature) (span : Span)
    {parameters : List Variable} (distinct : (parameters.map Variable.name).Nodup)
    {binding : Variable} (member : binding ∈ parameters) :
    (functionFrame signature span parameters).binding? 0 binding.name = some binding := by
  have oneScope (frame : Frame) (scope : Scope) (isOnly : frame.scopes = [scope]) :
      (parameters.foldl Frame.insertVariable frame).scopes =
        [parameters.foldl Scope.insertVariable scope] := by
    clear distinct member
    induction parameters generalizing frame scope with
    | nil => exact isOnly
    | cons first others ih =>
        apply ih
        simp [insertVariable, modifyInnermost, isOnly]
  have found := Scope.binding?_foldl_insertVariable distinct .empty member
  rw [functionFrame, binding?_setFlags, Frame.binding?, Frame.scope?, oneScope _ .empty rfl]
  exact found

/-- The parameter of a pattern is there, whatever its name. -/
theorem binding?_patternFrame (signature : PatternSignature) (span : Span) (value : Value)
    (site : Option Site) :
    (patternFrame signature span value site).binding? 0 signature.parameter.name =
      some (bindParameter signature.parameter value site) := by
  rw [patternFrame, binding?_setFlags]
  exact (Scope.binding?_insertVariable _ _ _).trans (if_pos rfl)

end Frame

/-- Each argument is bound to its parameter, with the storage that it names before any
argument is evaluated. -/
theorem bindArguments_binds {evaluate : Expression → Action Value}
    (evaluated : ∀ expression, (evaluate expression).Within Machine.Alike)
    (arguments : List Expression) (parameters : List Declarator) (machine : Machine) :
    (bindArguments evaluate arguments parameters).Ensures machine fun bound _ =>
      bound.map Variable.name = (parameters.zip arguments).map (·.1.name) ∧
      ∀ passed ∈ parameters.zip arguments,
        ∃ value, bindParameter passed.1 value (machine.argumentSite? passed.2) ∈ bound := by
  induction arguments generalizing parameters machine with
  | nil =>
      rw [bindArguments, Action.ensures_pure]
      · simp
      · simp
  | cons argument arguments ih =>
      cases parameters with
      | nil =>
          rw [bindArguments, Action.ensures_pure]
          · simp
          · simp
      | cons parameter parameters =>
          simp only [bindArguments, Action.ensures_bind, Action.ensures_read, Action.ensures_pure]
          intro value between evaluates rest after bindsRest
          obtain ⟨names, binds⟩ := ih parameters between rest after bindsRest
          have alike := evaluated argument machine value between evaluates
          refine ⟨congrArg (parameter.name :: ·) names, List.forall_mem_cons.mpr ⟨?_, ?_⟩⟩
          · exact ⟨_, List.mem_cons_self⟩
          · intro passed isPassed
            obtain ⟨bound, member⟩ := binds passed isPassed
            rw [alike.argumentSite?] at member
            exact ⟨bound, List.mem_cons_of_mem _ member⟩

/-- What follows the body of a function leaves the stack alone. -/
theorem finished_runBody {execute : Statement → Action Flow} {signature : FunctionSignature}
    {body : Statement} {machine after : Machine} {value : Value}
    (finished : runBody execute signature body machine = .finished value after) :
    ∃ flow between, execute body machine = .finished flow between ∧
      after.stack = between.stack := by
  obtain ⟨flow, between, executes, ends⟩ := (Action.finished_bind _ _).mp finished
  have fallsThrough (ends : (fallThrough signature : Action Value) between =
      .finished value after) : after.stack = between.stack := by
    unfold fallThrough at ends
    split at ends
    · cases (Action.finished_read _).mp ends with
      | intro _ same => rw [same]
    · simp only [Action.finished_bind, Action.finished_read, Action.finished_update] at ends
      obtain ⟨_, _, ⟨-, rfl⟩, _, _, rfl, -, rfl⟩ := ends
      rfl
  refine ⟨flow, between, executes, ?_⟩
  cases flow with
  | giveBack given => rw [((Action.finished_pure _).mp ends).2]
  | normal => exact fallsThrough ends
  | skip => exact fallsThrough ends
  | stop => exact fallsThrough ends

namespace Machine

variable {maxDepth fuel : Nat} {caller called : Machine} {call : Action Value}
  {body : Statement} {passing : List (Declarator × Expression)}

namespace Calls

/-- When the body of a call begins, a parameter keeps the storage that its argument names. -/
theorem binding?_parameter (calls : caller.Calls maxDepth fuel call body passing called)
    (distinct : (passing.map (·.1.name)).Nodup) {parameter : Declarator} {argument : Expression}
    (isPassed : (parameter, argument) ∈ passing) :
    ∃ value, called.stack.binding? ⟨called.stack.height, 0, parameter.name⟩ =
      some (bindParameter parameter value (caller.argumentSite? argument)) := by
  rw [CallStack.binding?_of_frame_eq_height rfl]
  cases calls with
  | function permitted binds =>
      obtain ⟨names, bound⟩ :=
        bindArguments_binds (evaluate_alike maxDepth fuel) _ _ caller _ _ binds
      obtain ⟨value, member⟩ := bound _ isPassed
      rw [← names] at distinct
      exact ⟨value, Frame.binding?_functionFrame _ _ distinct member⟩
  | pattern evaluates =>
      cases List.mem_singleton.mp isPassed
      exact ⟨_, Frame.binding?_patternFrame _ _ _ _⟩

theorem opened (calls : caller.Calls maxDepth fuel call body passing called) :
    called.current.Opened := by
  cases calls with
  | function permitted binds =>
      exact .function _ _ (bindArguments_bound _ _ _ caller _ _ binds)
  | pattern evaluates => exact .pattern _ _ _ _

private theorem height_eq (calls : caller.Calls maxDepth fuel call body passing called) :
    called.stack.height = caller.stack.height + 1 := by
  obtain ⟨between, frame, alike, rfl⟩ := calls.opens_frame
  exact congrArg (· + 1) alike.stack.height_eq

/-- A call that finishes has executed its body and has taken its frame off. -/
theorem finishes (calls : caller.Calls maxDepth fuel call body passing called) {value : Value}
    {after : Machine} (finished : call caller = .finished value after) :
    ∃ flow between, (execute maxDepth fuel body : Action Flow) called = .finished flow between ∧
      after.stack = between.stack.pop := by
  cases calls with
  | @function signature body arguments span parameters reached permitted binds =>
      change (ite (signature.returns = .nothing ∧
        caller.current.hasFlags .onlyExpectValue = true) _ _ : Action Value) caller = _ at finished
      rw [if_neg permitted] at finished
      simp only [Action.finished_bind, Action.finished_update, Action.finished_pure] at finished
      obtain ⟨_, _, isBound, _, _, rfl, _, _, rfl, result, left, runs, _, _, rfl, -, rfl⟩ :=
        finished
      obtain ⟨rfl, rfl⟩ := Outcome.finished.inj (isBound.symm.trans binds)
      obtain ⟨flow, between, executes, same⟩ := finished_runBody runs
      exact ⟨flow, between, executes, congrArg CallStack.pop same⟩
  | @pattern signature body argument span held reached evaluates =>
      simp only [callPattern, Action.finished_bind, Action.finished_read, Action.finished_update,
        Action.finished_pure] at finished
      obtain ⟨_, _, ⟨rfl, rfl⟩, _, _, yields, _, _, rfl, _, _, rfl, flow, between, executes, _, _,
        rfl, -, rfl⟩ := finished
      obtain ⟨rfl, rfl⟩ := Outcome.finished.inj (yields.symm.trans evaluates)
      exact ⟨flow, between, executes, rfl⟩

theorem alike (calls : caller.Calls maxDepth fuel call body passing called) {value : Value}
    {after : Machine} (finished : call caller = .finished value after) : caller.Alike after := by
  cases calls with
  | function permitted binds =>
      exact callFunction_alike (evaluate_alike maxDepth fuel) (execute_extended maxDepth fuel) _ _ _
        _ _ caller value after finished
  | pattern evaluates =>
      exact callPattern_alike (evaluate_alike maxDepth fuel) (execute_extended maxDepth fuel) _ _ _
        _ _ caller value after finished

end Calls

/-- A variable that may be assigned lends its storage, under its name. -/
theorem argumentSite?_identifier {name : String} {site : Site} {binding : Variable}
    (found : caller.stack.find? name = some site)
    (bindingFound : caller.stack.binding? site = some binding)
    (assignable : binding.declarator.isMutable = true) (place : Span) :
    caller.argumentSite? (.identifier place name) = some (caller.stack.owner site) := by
  simp [argumentSite?, Expression.name?, found, bindingFound, assignable]

/-- The name of a variable lends the storage at a site, which is of a declared variable. -/
structure Offers (machine : Machine) (name : String) (owner : Site) (declarator : Declarator) :
    Prop where
  distinct : machine.Distinct
  target : ∃ stored, machine.stack.binding? owner = some stored ∧ stored.declarator = declarator
  lent : ∀ place, machine.argumentSite? (.identifier place name) = some owner

end Machine

/-! ## Calls inside one another -/

/-- A call that is lent a variable, from where its body begins. -/
structure Level where
  fuel : Nat
  /-- The parameter that is lent the variable. -/
  parameter : Declarator
  body : Statement
  /-- The machine on which the body begins. -/
  called : Machine

namespace Level

/-- Where the variable of the parameter lives. -/
def site (level : Level) : Site :=
  ⟨level.called.stack.height, 0, level.parameter.name⟩

def machines (maxDepth : Nat) (level : Level) : List Machine :=
  level.called :: ((execute maxDepth level.fuel level.body : Tracing Flow) level.called).passed

/-- A machine makes a call that passes a name for a parameter which may be assigned.  No two
parameters of the call have the same name, as in every program that can be read. -/
structure Begins (maxDepth : Nat) (caller : Machine) (call : Action Value) (name : String)
    (level : Level) : Prop where
  assignable : level.parameter.isMutable = true
  calls : ∃ passing place,
    caller.Calls maxDepth level.fuel call level.body passing level.called ∧
      (passing.map (·.1.name)).Nodup ∧ (level.parameter, .identifier place name) ∈ passing

/-- Calls that are made inside one another, the innermost first.  Each passes on the name of
the parameter that the call around it was lent the variable for. -/
inductive Nested (maxDepth : Nat) (first : Level) : List Level → Prop where
  | first : Nested maxDepth first [first]
  | next {inner outer : Level} {others : List Level} {caller : Machine} {call : Action Value}
      (nested : Nested maxDepth first (outer :: others))
      (inside : caller ∈ outer.machines maxDepth)
      (names : caller.stack.find? outer.parameter.name = some outer.site)
      (begins : inner.Begins maxDepth caller call outer.parameter.name) :
      Nested maxDepth first (inner :: outer :: others)

/-- On every machine of the level the parameter stands for the variable at a site: it refers
there, reading it gives what is held there, and what is assigned to it is cast to the type of
that variable and stored there, and no other variable changes after the value is evaluated. -/
structure StandsFor (maxDepth : Nat) (level : Level) (owner : Site) (declarator : Declarator) :
    Prop where
  carries : ∀ machine ∈ level.machines maxDepth, ∃ bound,
    machine.stack.binding? level.site = some bound ∧ bound.declarator = level.parameter ∧
      bound.reference = some owner
  /-- A name that is not reserved is found in the frame of the level. -/
  found : isReservedName level.parameter.name = false →
    ∀ machine ∈ level.machines maxDepth, machine.stack.height = level.called.stack.height →
      machine.stack.find? level.parameter.name = some level.site
  reads : ∀ machine ∈ level.machines maxDepth,
    machine.stack.find? level.parameter.name = some level.site →
      ∃ stored, machine.stack.binding? owner = some stored ∧ stored.declarator = declarator ∧
        ∀ span value after,
          Evaluates maxDepth (.identifier span level.parameter.name) machine value after ↔
            machine.depth + 1 < maxDepth ∧ stored.initialized = true ∧ value = stored.value ∧
              after = (machine.entered span).concluded value
  writes : ∀ machine ∈ level.machines maxDepth,
    machine.stack.find? level.parameter.name = some level.site →
      ∀ span place content value after,
        Evaluates maxDepth (.assign span (.identifier place level.parameter.name) content)
          machine value after →
        ∃ result between stored, Yields maxDepth content (machine.entered span) result between ∧
          value = result.cast declarator.type ∧ between.stack.binding? owner = some stored ∧
          after.stack.binding? owner = some (stored.store value) ∧
          ∀ site, site ≠ owner → after.stack.binding? site = between.stack.binding? site

/-! ### Where the body begins -/

/-- The parameter refers to the variable at a site when the body begins. -/
structure Lent (level : Level) (owner : Site) (declarator : Declarator) : Prop where
  assignable : level.parameter.isMutable = true
  distinct : level.called.Distinct
  target : ∃ stored, level.called.stack.binding? owner = some stored ∧
    stored.declarator = declarator
  bound : ∃ bound, level.called.stack.binding? level.site = some bound ∧
    bound.declarator = level.parameter ∧ bound.reference = some owner

variable {maxDepth : Nat} {caller machine : Machine} {call : Action Value} {name : String}
  {owner : Site} {declarator : Declarator} {level : Level}

theorem Begins.lent (begins : level.Begins maxDepth caller call name)
    (offers : caller.Offers name owner declarator) : level.Lent owner declarator := by
  obtain ⟨passing, place, calls, distinctNames, isPassed⟩ := begins.calls
  obtain ⟨value, bound⟩ := calls.binding?_parameter distinctNames isPassed
  rw [offers.lent place] at bound
  refine ⟨begins.assignable, ?_, ?_, _, bound, rfl, ?_⟩
  · obtain ⟨between, frame, alike, called⟩ := calls.opens_frame
    have opened := calls.opened
    rw [called] at opened ⊢
    exact (offers.distinct.of_alike alike.stack).pushFrame opened
  · obtain ⟨between, frame, alike, called⟩ := calls.opens_frame
    obtain ⟨stored, storedFound, sameDeclarator⟩ := offers.target
    have related := alike.stack.binding? owner
    rw [storedFound] at related
    cases later : between.stack.binding? owner with
    | none =>
        rw [later] at related
        cases related
    | some kept =>
        rw [later] at related
        cases related with
        | some keptAlike =>
            rw [called]
            exact ⟨kept, Machine.binding?_pushFrame later frame,
              keptAlike.declarator.trans sameDeclarator⟩
  · simp [bindParameter, begins.assignable]

/-! ### While the body is executed -/

theorem upholds (inside : machine ∈ level.machines maxDepth) : level.called.Upholds machine := by
  rcases List.mem_cons.mp inside with rfl | isPassed
  · exact .of_stack_eq rfl
  · exact ((evaluation_maintains Machine.Upholds.maintained maxDepth level.fuel).2.1 level.body
      level.called).passed machine isPassed

namespace Lent

variable (lent : level.Lent owner declarator) (inside : machine ∈ level.machines maxDepth)

include lent inside

theorem distinct_inside : machine.Distinct := by
  rcases List.mem_cons.mp inside with rfl | isPassed
  · exact lent.distinct
  · exact ((evaluation_maintains distinct_maintained maxDepth level.fuel).2.1 level.body
      level.called).passed machine isPassed lent.distinct

theorem target_inside : ∃ stored, machine.stack.binding? owner = some stored ∧
    stored.declarator = declarator := by
  obtain ⟨stored, storedFound, sameDeclarator⟩ := lent.target
  obtain ⟨later, laterFound, upheld⟩ := (upholds inside).bindings owner stored storedFound
  exact ⟨later, laterFound, upheld.declarator.trans sameDeclarator⟩

theorem bound_inside : ∃ bound, machine.stack.binding? level.site = some bound ∧
    bound.declarator = level.parameter ∧ bound.reference = some owner := by
  obtain ⟨bound, boundFound, sameDeclarator, refers⟩ := lent.bound
  obtain ⟨later, laterFound, upheld⟩ := (upholds inside).bindings level.site bound boundFound
  exact ⟨later, laterFound, upheld.declarator.trans sameDeclarator,
    upheld.reference.trans refers⟩

theorem owner_inside : machine.stack.owner level.site = owner := by
  obtain ⟨bound, boundFound, -, refers⟩ := lent.bound_inside inside
  simp [CallStack.owner, boundFound, refers]

/-- The name of the parameter lends the storage on. -/
theorem offers (names : machine.stack.find? level.parameter.name = some level.site) :
    machine.Offers level.parameter.name owner declarator := by
  refine ⟨lent.distinct_inside inside, lent.target_inside inside, fun place => ?_⟩
  obtain ⟨bound, boundFound, sameDeclarator, -⟩ := lent.bound_inside inside
  have assignable : bound.declarator.isMutable = true := by
    rw [sameDeclarator]
    exact lent.assignable
  rw [Machine.argumentSite?_identifier names boundFound assignable, lent.owner_inside inside]

theorem find?_inside (chosen : isReservedName level.parameter.name = false)
    (isOwn : machine.stack.height = level.called.stack.height) :
    machine.stack.find? level.parameter.name = some level.site := by
  obtain ⟨bound, boundFound, -⟩ := lent.bound_inside inside
  have isTop : level.site.frame = machine.stack.height := isOwn.symm
  rw [CallStack.binding?_of_frame_eq_height isTop] at boundFound
  have found : machine.stack.current.find? level.parameter.name = some 0 :=
    ((lent.distinct_inside inside).current.find?_eq_some_iff chosen).mpr (by
      rw [show machine.current.binding? 0 level.parameter.name = some bound from boundFound]
      rfl)
  simp only [CallStack.find?, found]
  rw [isOwn]
  rfl

theorem ownerOf?_inside (names : machine.stack.find? level.parameter.name = some level.site) :
    ∃ stored, machine.stack.binding? owner = some stored ∧ stored.declarator = declarator ∧
      machine.ownerOf? level.parameter.name = some (owner, stored) := by
  obtain ⟨stored, storedFound, sameDeclarator⟩ := lent.target_inside inside
  refine ⟨stored, storedFound, sameDeclarator, ?_⟩
  simp [Machine.ownerOf?, names, lent.owner_inside inside, storedFound]

end Lent

theorem Lent.standsFor (lent : level.Lent owner declarator) :
    level.StandsFor maxDepth owner declarator where
  carries _ inside := lent.bound_inside inside
  found chosen _ inside := lent.find?_inside inside chosen
  reads machine inside names := by
    obtain ⟨stored, storedFound, sameDeclarator, owns⟩ := lent.ownerOf?_inside inside names
    refine ⟨stored, storedFound, sameDeclarator, fun span value after => ?_⟩
    rw [evaluates_identifier_iff, Machine.valueOf_eq_ok_iff_of_ownerOf? owns, and_assoc]
  writes machine inside names span place content value after evaluates := by
    obtain ⟨stored, storedFound, rfl, owns⟩ := lent.ownerOf?_inside inside names
    obtain ⟨-, _, _, _, result, between, isName, -, owns', -, yields, lives, isCast, ends⟩ :=
      evaluates_assign_iff.mp evaluates
    cases isName
    cases owns.symm.trans owns'
    obtain ⟨current, currentFound⟩ := Option.isSome_iff_exists.mp lives
    -- The owner is looked up before the content is evaluated, and stored to afterwards.
    have later (site : Site) : after.stack.binding? site =
        if site = owner then (between.stack.binding? site).map (·.store value)
        else between.stack.binding? site := by
      rw [ends, Machine.binding?_of_holdings_eq (Machine.holdings_concluded _ value),
        Machine.binding?_store]
    refine ⟨result, between, current, yields, isCast, currentFound, ?_, fun site other => ?_⟩
    · rw [later, if_pos rfl, currentFound]
      rfl
    · rw [later, if_neg other]

/-- A call made inside another one with the name of its parameter is lent the same variable. -/
theorem Nested.lent {first : Level} {levels : List Level}
    (nested : Nested maxDepth first levels) (firstLent : first.Lent owner declarator) :
    ∀ level ∈ levels, level.Lent owner declarator := by
  -- The owner is the same on every level: a name that is passed on lends the variable that its
  -- parameter refers to, not the parameter itself.
  induction nested with
  | first => exact List.forall_mem_singleton.mpr firstLent
  | next nested inside names begins ih =>
      have outerLent := ih _ List.mem_cons_self
      exact List.forall_mem_cons.mpr ⟨begins.lent (outerLent.offers inside names), ih⟩

/-! ### After the call -/

/-- When the call has returned, the variable is what has been stored in it along the rest of
the way, from any machine of the level on. -/
theorem Begins.binding?_after (begins : level.Begins maxDepth caller call name)
    (offers : caller.Offers name owner declarator) {value : Value} {after : Machine}
    (returns : call caller = .finished value after) {before later : List Machine}
    {between : Machine} (onTheWay : level.machines maxDepth = before ++ between :: later) :
    ∃ values, StoredAlong owner between later values ∧ after.stack.binding? owner =
      (between.stack.binding? owner).map fun binding => values.foldl Variable.store binding := by
  obtain ⟨passing, place, calls, -, -⟩ := begins.calls
  obtain ⟨flow, ended, executes, popped⟩ := calls.finishes returns
  have lent := begins.lent offers
  obtain ⟨reached, walks, left⟩ := execute_walks maxDepth level.fuel level.body level.called
  have traced : ((execute maxDepth level.fuel level.body : Tracing Flow) level.called).outcome =
      .finished flow ended := by
    rw [← executes, ← Tracing.action_execute]
    rfl
  rw [traced] at left
  obtain rfl : ended = reached := left
  have rest := walks.rest onTheWay
  have lives : ∀ passed ∈ between :: later, (passed.stack.binding? owner).isSome = true := by
    intro passed member
    have inside : passed ∈ level.machines maxDepth := by
      rw [onTheWay]
      exact List.mem_append_right _ member
    obtain ⟨stored, found, -⟩ := lent.target_inside inside
    rw [found, Option.isSome_some]
  obtain ⟨values, stored⟩ := rest.storedAlong lives
  refine ⟨values, stored, ?_⟩
  -- The owner was there before the call, so it lies below the frame that returning removes.
  have below : owner.frame < ended.stack.height := by
    obtain ⟨target, targetFound, -⟩ := offers.target
    have isBelow := CallStack.le_height_of_binding? targetFound
    have upholds := ((evaluation_maintains Machine.Upholds.maintained maxDepth level.fuel).2.1
      level.body level.called).left
    rw [traced] at upholds
    have isHigher : level.called.stack.height ≤ ended.stack.height := upholds.scopes.height_le
    have opens := calls.height_eq
    omega
  rw [← stored.binding? rest, popped, CallStack.binding?, CallStack.frame?_pop _ below]
  rfl

end Level

/-! ## Main statement -/

/-- A call is made with the name of a variable that may be assigned, and further calls inside
one another, any number of them, with the name of the parameter that the call around them was
lent it for.  Then on every level the parameter stands for the variable that owns the storage,
and when the first call has returned, the name yields the value that was last stored there:
what an assignment to a parameter has stored, or else the last of the values that are stored
after it. -/
theorem references_pass_through_nested_calls {maxDepth : Nat} {caller : Machine}
    (passed : caller.Passed) {name : String} {site : Site} {binding : Variable}
    (found : caller.stack.find? name = some site)
    (bindingFound : caller.stack.binding? site = some binding)
    (assignable : binding.declarator.isMutable = true) {call : Action Value} {first : Level}
    (begins : first.Begins maxDepth caller call name) {levels : List Level}
    (nested : Level.Nested maxDepth first levels) :
    ∃ target, caller.stack.binding? (caller.stack.owner site) = some target ∧
      (∀ level ∈ levels,
        level.StandsFor maxDepth (caller.stack.owner site) target.declarator) ∧
      ∀ result after, call caller = .finished result after →
        ∀ level ∈ levels, ∀ machine ∈ level.machines maxDepth,
          machine.stack.find? level.parameter.name = some level.site →
          ∀ span place content value next,
            Evaluates maxDepth (.assign span (.identifier place level.parameter.name) content)
              machine value next →
            ∀ before later, first.machines maxDepth = before ++ next :: later →
              ∃ values, StoredAlong (caller.stack.owner site) next later values ∧
                after.valueOf name = .ok (values.getLast?.getD value) := by
  have live : caller.Live := live_invariant.of_passed passed
  have distinct : caller.Distinct := distinct_invariant.of_passed passed
  obtain ⟨target, targetFound⟩ :=
    Option.isSome_iff_exists.mp (live.isSome_binding?_owner found)
  have offers : caller.Offers name (caller.stack.owner site) target.declarator :=
    ⟨distinct, ⟨target, targetFound, rfl⟩,
      Machine.argumentSite?_identifier found bindingFound assignable⟩
  have lent := nested.lent (begins.lent offers)
  refine ⟨target, targetFound, fun level member => (lent level member).standsFor, ?_⟩
  intro result after returns level member machine inside names span place content value next
    assigns before later onTheWay
  obtain ⟨_, _, current, -, -, -, stored, -⟩ :=
    (lent level member).standsFor.writes machine inside names span place content value next assigns
  obtain ⟨values, storedAlong, final⟩ := begins.binding?_after offers returns onTheWay
  refine ⟨values, storedAlong, ?_⟩
  -- Only the last of the stored values is left in the variable that the name stands for.
  rw [stored, Option.map_some, Variable.foldl_store] at final
  obtain ⟨_, _, calls, -, -⟩ := begins.calls
  have alike := calls.alike returns
  refine Machine.valueOf_eq_ok_iff.mpr
    ⟨site, current.store (values.getLast?.getD value), ?_, ?_, rfl, rfl⟩
  · rw [alike.stack.find? name, found]
  · rw [alike.stack.owner site, final]

/-- `G` assigns its parameter and is called by `F` with the parameter of `F`, which is lent `x`.
When `F` has returned, `x` is what `G` has assigned. -/
theorem assignment_two_calls_deep_reaches_variable :
    let place : Span := .firstCharacter
    let maxDepth : Nat := Limits.standard.maxDepth
    let lent (name : String) : Declarator := ⟨place, true, .fact, name⟩
    let signature (function parameter : String) : FunctionSignature :=
      ⟨place, function, false, [lent parameter], .nothing⟩
    let passes (function name : String) : Expression :=
      .call place function [.identifier place name]
    let assigns : Expression :=
      .assign place (.identifier place "q") (.literal place (.fact false))
    let program : Statement := .compound place
      [.variable (lent "x") (some (.literal place (.fact true))),
        .function (signature "G" "q") (.expression assigns),
        .function (signature "F" "p") (.expression (passes "G" "p")),
        .expression (passes "F" "x")]
    let trace : List Machine := ((execute maxDepth 12 program : Tracing Flow) .initial).passed
    let caller : Machine := .firstOf (fun machine => machine.depth == 3 &&
      (resolve machine "F" 1).toOption.join.isSome) trace
    let call (function parameter name : String) (body : Expression) : Action Value :=
      callFunction (evaluate maxDepth 9) (execute maxDepth 9) (signature function parameter)
        (.expression body) none [.identifier place name] place
    let level (function parameter : String) (body : Expression) (caller : Machine) : Level :=
      ⟨9, lent parameter, .expression body,
        (((caller.entered place).concluded (.fact true)).mark place).pushFrame
          (functionFrame (signature function parameter) place
            [bindParameter (lent parameter) (.fact true) (some ⟨0, 2, "x"⟩)])⟩
    let first : Level := level "F" "p" (passes "G" "p") caller
    let between : Machine := .firstOf (fun machine => machine.depth == 5) (first.machines maxDepth)
    let inner : Level := level "G" "q" assigns between
    let machine : Machine := .firstOf (fun machine => machine.depth == 6) (inner.machines maxDepth)
    let next : Machine := .firstOf (fun machine => machine.depth == 6 &&
      decide ((machine.valueOf "q").toOption = some (.fact false))) (first.machines maxDepth)
    caller.Passed ∧ first.Begins maxDepth caller (call "F" "p" "x" (passes "G" "p")) "x" ∧
    Level.Nested maxDepth first [inner, first] ∧
    inner.StandsFor maxDepth ⟨0, 2, "x"⟩ (lent "x") ∧
    Evaluates maxDepth assigns machine (.fact false) next ∧
    ∃ result after before later values,
      call "F" "p" "x" (passes "G" "p") caller = .finished result after ∧
      first.machines maxDepth = before ++ next :: later ∧
      StoredAlong ⟨0, 2, "x"⟩ next later values ∧
      after.valueOf "x" = .ok (values.getLast?.getD (.fact false)) ∧
      (after.valueOf "x").toOption = some (.fact false) := by
  intro place maxDepth lent signature passes assigns program trace caller call level first between
    inner machine next
  have passed : caller.Passed :=
    .executing (.start .standard) (Machine.firstOf_mem (by decide +kernel))
  have binds : (bindArguments (evaluate maxDepth 9) [.identifier place "x"] [lent "p"] :
      Action (List Variable)) caller = .finished
        [bindParameter (lent "p") (.fact true) (some ⟨0, 2, "x"⟩)]
        ((caller.entered place).concluded (.fact true)) := by
    subst caller trace program assigns passes signature lent maxDepth place
    rfl
  have innerBinds : (bindArguments (evaluate maxDepth 9) [.identifier place "p"] [lent "q"] :
      Action (List Variable)) between = .finished
        [bindParameter (lent "q") (.fact true) (some ⟨0, 2, "x"⟩)]
        ((between.entered place).concluded (.fact true)) := by
    subst between first level caller trace program assigns passes signature lent maxDepth place
    rfl
  have begins : first.Begins maxDepth caller (call "F" "p" "x" (passes "G" "p")) "x" :=
    ⟨rfl, [(lent "p", .identifier place "x")], place, .function (by decide +kernel) binds,
      by decide, List.mem_singleton_self _⟩
  have innerBegins : inner.Begins maxDepth between (call "G" "q" "p" assigns) "p" :=
    ⟨rfl, [(lent "q", .identifier place "p")], place, .function (by decide +kernel) innerBinds,
      by decide, List.mem_singleton_self _⟩
  have nested : Level.Nested maxDepth first [inner, first] :=
    .next .first (Machine.firstOf_mem (by decide +kernel)) (by decide +kernel) innerBegins
  obtain ⟨binding, bindingFound, declared⟩ := Option.map_eq_some_iff.mp
    (show (caller.stack.binding? ⟨0, 2, "x"⟩).map Variable.declarator = some (lent "x") by
      decide +kernel)
  have owns : caller.stack.owner ⟨0, 2, "x"⟩ = ⟨0, 2, "x"⟩ := by decide +kernel
  obtain ⟨target, targetFound, stands, returned⟩ := references_pass_through_nested_calls passed
    (show caller.stack.find? "x" = some ⟨0, 2, "x"⟩ by decide +kernel) bindingFound
    (by rw [declared]) begins nested
  rw [owns] at targetFound stands returned
  have assigned : (evaluate maxDepth 9 assigns : Action Value) machine =
      .finished (.fact false) next := by
    subst next machine inner between first level caller trace program assigns passes signature
      lent maxDepth place
    rfl
  have assignment : Evaluates maxDepth assigns machine (.fact false) next := ⟨9, assigned⟩
  have ends : (call "F" "p" "x" (passes "G" "p") caller).finishesWith
      (fun _ after => decide ((after.valueOf "x").toOption = some (.fact false))) = true := by
    decide +kernel
  have isNext : next ∈ first.machines maxDepth := Machine.firstOf_mem (by decide +kernel)
  have isMachine : machine ∈ inner.machines maxDepth := Machine.firstOf_mem (by decide +kernel)
  obtain ⟨before, later, onTheWay⟩ := List.append_of_mem isNext
  obtain ⟨result, after, returns, isFalse⟩ := Outcome.exists_of_finishesWith ends
  obtain ⟨values, stored, yields⟩ := returned result after returns inner List.mem_cons_self
    machine isMachine (by decide +kernel) place place _ _ _ assignment before later onTheWay
  rw [bindingFound] at targetFound
  cases targetFound
  rw [declared] at stands
  exact ⟨passed, begins, nested, stands inner List.mem_cons_self, assignment, result, after,
    before, later, values, returns, onTheWay, stored, yields, of_decide_eq_true isFalse⟩

end Plainspoken
