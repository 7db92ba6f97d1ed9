import Plainspoken.Proofs.SplitRoutines
import Plainspoken.Proofs.Termination

/-!
# Results of calls

A function that is declared with a type of results yields a value of that type, or nothing.
What its body gives back is cast on the way, and a routine that runs instead makes a value of
the type it is declared with.  Only where a body ends without giving anything back the call
yields whatever was evaluated last, and warns of it.

`Split` and `BackSplit` are declared to yield a text, but yield what they have assigned last.
It has been cast to the type of the variable that their last argument lends them, so that is
the type of their results.
-/

namespace Plainspoken

open Stepping Evaluation

/-- A call of a function whose body ends without giving anything back: all that is emitted
after the body is the warning, with the name of the function and where its frame is. -/
def Machine.MissesReturn (maxDepth : Nat) (machine : Machine) (span : Span)
    (signature : FunctionSignature) (body : Statement) (arguments : List Expression)
    (after : Machine) : Prop :=
  ∃ parameters between flow ended,
    BindsArguments maxDepth arguments signature.parameters (machine.entered span) parameters
      between ∧
    Executes maxDepth body
      ((between.mark span).pushFrame (functionFrame signature span parameters)) flow ended ∧
    after.emitted = ended.emitted.push
      (.event (.warning .missingReturn ended.current.span [.text signature.name]))

/-- The variable whose storage an argument lends. -/
def Machine.lent? (machine : Machine) (argument : Expression) : Option Variable :=
  (machine.argumentSite? argument).bind machine.stack.binding?

/-- The variable in which a routine stores its result: the one that its last argument lends, if
it assigns the parts of a text to its arguments. -/
structure Machine.StoresResult (machine : Machine) (routine : Option Routine)
    (arguments : List Expression) (stored : Variable) : Prop where
  splits : routine = some .split ∨ routine = some .backSplit
  lent : ∃ argument, arguments[2]? = some argument ∧ machine.lent? argument = some stored

/-! ## What the library holds -/

/-- Entries of routines are those of the library. -/
def Scope.Stocked (scope : Scope) : Prop :=
  ∀ entry ∈ scope.entries, ∀ routine, entry.routine = some routine → entry = routine.entry

namespace Scope.Stocked

theorem of_entries_eq_nil {scope : Scope} (bare : scope.entries = []) : scope.Stocked := by
  unfold Stocked
  rw [bare]
  exact List.forall_mem_nil _

theorem of_opened {scope : Scope} (opened : scope.Opened) : scope.Stocked := by
  apply of_entries_eq_nil
  cases opened <;> rfl

theorem library : Routine.library.Stocked := by
  intro entry member routine isRoutine
  obtain ⟨other, -, rfl⟩ := List.mem_map.mp member
  rw [other.entry_routine, Option.some.injEq] at isRoutine
  rw [isRoutine]

/-- What a program declares is no routine. -/
theorem insertEntry {scope : Scope} (stocked : scope.Stocked) (declared : Callable) :
    (scope.insertEntry ⟨declared, none⟩).Stocked := by
  intro entry member routine isRoutine
  rcases List.mem_cons.mp member with rfl | isEarlier
  · cases isRoutine
  · exact stocked entry (List.mem_of_mem_filter isEarlier) routine isRoutine

end Scope.Stocked

theorem Frame.Opened.stocked {frame : Frame} (opened : frame.Opened) :
    frame.Throughout Scope.Stocked := by
  intro scope member
  apply Scope.Stocked.of_entries_eq_nil
  cases opened with
  | function signature span => exact entries_functionFrame signature span _ scope member
  | pattern signature span value site =>
      exact entries_patternFrame signature span _ site scope member

theorem stocked_maintained : Machine.Maintained fun machine after =>
    machine.Everywhere Scope.Stocked → after.Everywhere Scope.Stocked where
  refl _ stocked := stocked
  trans firstSecond secondThird stocked := secondThird (firstSecond stocked)
  noted _ _ _ _ stocked := stocked
  marked _ _ stocked := stocked.modifyCurrent stocked.current
  flagsSet _ _ stocked := stocked.modifyInnermost fun _ scope => scope
  flagsUnset _ _ stocked := stocked.modifyInnermost fun _ scope => scope
  scopeOpened _ _ opened stocked := stocked.pushScope (.of_opened opened)
  scopeClosed opened inside stocked := (inside (stocked.pushScope (.of_opened opened))).popScope
  frameOpened _ _ opened stocked := stocked.pushFrame opened.stocked
  frameClosed opened inside stocked := (inside (stocked.pushFrame opened.stocked)).popFrame
  stored machine site binding found _ value stocked := by
    apply stocked.store
    intro frame scope frameFound scopeFound
    rw [CallStack.frame?_eq] at frameFound
    exact stocked frame (Height.mem_of_get?_eq_some frameFound) scope
      (Height.mem_of_get?_eq_some scopeFound)
  variableDeclared machine binding frame fresh declares stocked := by
    unfold Frame.declareVariable at declares
    split at declares
    · cases declares
    · cases declares
      exact stocked.modifyInnermost fun _ scope => scope
  callableDeclared machine declared _ stocked :=
    stocked.modifyCurrent (stocked.current.declareCallable fun _ scope => scope.insertEntry _)

theorem stocked_invariant : Machine.Invariant (Machine.Everywhere Scope.Stocked) :=
  stocked_maintained.invariant
    (by
      intro frame member
      rw [List.mem_singleton.mp member]
      exact List.forall_mem_cons.mpr
        ⟨.library, List.forall_mem_singleton.mpr (.of_entries_eq_nil rfl)⟩)
    fun _ _ inherits => inherits

/-- A call finds what it names, with as many parameters as it has arguments. -/
theorem Machine.answers_of_resolve {machine : Machine} {name : String} {arity : Nat}
    {entry : Entry} (resolves : Evaluation.resolve machine name arity = .ok (some entry)) :
    entry.callable.answers name arity = true := by
  obtain ⟨-, -, scope, -, declared⟩ := exists_declared_of_resolve resolves
  exact Callable.answers_of_declared? declared

/-- A call that finds a routine finds it in the library. -/
theorem Machine.Passed.entry_eq {machine : Machine} (passed : machine.Passed) {name : String}
    {arity : Nat} {callable : Callable} {routine : Routine}
    (resolves : Evaluation.resolve machine name arity = .ok (some ⟨callable, some routine⟩)) :
    (⟨callable, some routine⟩ : Entry) = routine.entry := by
  obtain ⟨frame, frameMember, scope, member, isEntry⟩ := Machine.exists_mem_of_resolve resolves
  exact stocked_invariant.of_passed passed frame frameMember scope member _ isEntry routine rfl

/-! ## What functions of a program yield -/

section Bodies

variable {maxDepth : Nat} {machine after : Machine} {signature : FunctionSignature}
  {body : Statement} {value : Value}

theorem returns_functionFrame (span : Span) (parameters : List Variable) :
    (functionFrame signature span parameters).returns = signature.returns := by
  have kept (frame : Frame) :
      (parameters.foldl Frame.insertVariable frame).returns = frame.returns := by
    induction parameters generalizing frame with
    | nil => rfl
    | cons binding parameters ih => exact ih (frame.insertVariable binding)
  exact kept (.start signature.name span signature.returns)

theorem finished_fallThrough (results : signature.returns ≠ .nothing)
    (finished : (fallThrough signature : Action Value) machine = .finished value after) :
    after = machine.emit
      (.event (.warning .missingReturn machine.current.span [.text signature.name])) := by
  unfold fallThrough at finished
  rw [if_neg results] at finished
  simp only [Action.finished_bind, Action.finished_read, Action.finished_update] at finished
  obtain ⟨_, _, ⟨rfl, rfl⟩, _, _, rfl, -, rfl⟩ := finished
  rfl

/-- The body of a function gives back a value of the declared type or nothing, or the call
warns. -/
theorem RunsCallee.result_of_body {span : Span} {parameters : List Variable}
    (results : signature.returns ≠ .nothing)
    (runs : RunsCallee maxDepth signature body none
      (machine.pushFrame (functionFrame signature span parameters)) value after) :
    ∃ flow ended, Executes maxDepth body
        (machine.pushFrame (functionFrame signature span parameters)) flow ended ∧
      ((value = .nothing ∨ value.type = signature.returns) ∨
        after = ended.emit
          (.event (.warning .missingReturn ended.current.span [.text signature.name]))) := by
  obtain ⟨fuel, finished⟩ := runs
  obtain ⟨flow, ended, executes, ends⟩ := (Action.finished_bind _ _).mp finished
  have permits := execute_contained maxDepth fuel body _ flow ended executes
  refine ⟨flow, ended, ⟨fuel, executes⟩, ?_⟩
  cases flow with
  | giveBack given =>
      obtain ⟨rfl, -⟩ := (Action.finished_pure _).mp ends
      obtain ⟨-, -, fits, -⟩ := permits
      rw [← @returns_functionFrame signature span parameters]
      exact .inl fits
  | normal => exact .inr (finished_fallThrough results ends)
  | skip => exact .inr (finished_fallThrough results ends)
  | stop => exact .inr (finished_fallThrough results ends)

end Bodies

private theorem not_storesResult_none {machine : Machine} {arguments : List Expression}
    {stored : Variable} : ¬ machine.StoresResult none arguments stored := by
  rintro ⟨isSplit | isBackSplit, -⟩
  · cases isSplit
  · cases isBackSplit

/-! ## What routines yield -/

/-- The routines that make another text of the one they are given. -/
inductive Routine.Takes : Routine → (String → Option String) → Prop where
  | first : Takes .first (some ∘ Words.first)
  | last : Takes .last (some ∘ Words.last)
  | body : Takes .body Words.body
  | tail : Takes .tail Words.tail

/-- The functions of the library that have a result are declared to yield texts. -/
theorem Routine.takes_or_splits {routine : Routine} {signature : FunctionSignature}
    {body : Statement} (isEntry : ⟨.function signature body, some routine⟩ = routine.entry)
    (results : signature.returns ≠ .nothing) :
    signature.returns = .text ∧ ((∃ operation, routine.Takes operation) ∨
      ∃ operation leftName rightName, routine.Splits operation leftName rightName) := by
  cases routine with
  | print | quit =>
      cases isEntry
      exact absurd rfl results
  | fizzBuzz => cases isEntry
  | first =>
      cases isEntry
      exact ⟨rfl, .inl ⟨_, .first⟩⟩
  | last =>
      cases isEntry
      exact ⟨rfl, .inl ⟨_, .last⟩⟩
  | body =>
      cases isEntry
      exact ⟨rfl, .inl ⟨_, .body⟩⟩
  | tail =>
      cases isEntry
      exact ⟨rfl, .inl ⟨_, .tail⟩⟩
  | split =>
      cases isEntry
      exact ⟨rfl, .inr ⟨_, _, _, .split⟩⟩
  | backSplit =>
      cases isEntry
      exact ⟨rfl, .inr ⟨_, _, _, .backSplit⟩⟩

/-- A routine that takes a text yields a text or nothing. -/
theorem type_of_textRoutine {operation : String → Option String} {machine after : Machine}
    {value : Value}
    (finished : (textRoutine operation : Action Value) machine = .finished value after) :
    value = .nothing ∨ value.type = .text := by
  unfold textRoutine at finished
  simp only [Action.finished_bind, Action.finished_pure] at finished
  obtain ⟨given, _, -, rfl, -⟩ := finished
  cases given.asText?.bind operation with
  | none => exact .inl rfl
  | some text => exact .inr rfl

theorem Routine.Takes.result_type {maxDepth : Nat} {machine after : Machine} {routine : Routine}
    {operation : String → Option String} {signature : FunctionSignature} {body : Statement}
    {value : Value} (takes : routine.Takes operation)
    (runs : RunsCallee maxDepth signature body (some routine) machine value after) :
    value = .nothing ∨ value.type = .text := by
  obtain ⟨fuel, finished⟩ := runs
  cases takes <;> exact type_of_textRoutine finished

private theorem Routine.Takes.not_storesResult {machine : Machine} {routine : Routine}
    {operation : String → Option String} {arguments : List Expression} {stored : Variable}
    (takes : routine.Takes operation) :
    ¬ machine.StoresResult (some routine) arguments stored := by
  rintro ⟨isSplit | isBackSplit, -⟩
  · cases isSplit
    cases takes
  · cases isBackSplit
    cases takes

theorem CallStack.Alike.map_binding? {before after : CallStack} (alike : before.Alike after)
    (site : Site) : (after.binding? site).map Variable.declarator =
      (before.binding? site).map Variable.declarator := by
  have related := alike.binding? site
  generalize before.binding? site = earlier, after.binding? site = later at related
  cases related with
  | none => rfl
  | some alike => exact congrArg some alike.declarator

/-- What owns a name is declared alike on both machines. -/
theorem Machine.Alike.map_ownerOf? {machine after : Machine} (alike : machine.Alike after)
    (name : String) : (after.ownerOf? name).map (·.2.declarator) =
      (machine.ownerOf? name).map (·.2.declarator) := by
  have declares (machine : Machine) : (machine.ownerOf? name).map (·.2.declarator) =
      (machine.stack.find? name).bind fun site =>
        (machine.stack.binding? (machine.stack.owner site)).map Variable.declarator := by
    unfold Machine.ownerOf?
    cases machine.stack.find? name with
    | none => rfl
    | some site =>
        cases found : machine.stack.binding? (machine.stack.owner site) <;> simp [found]
  simp only [declares, alike.stack.find? name, alike.stack.owner, alike.stack.map_binding?]

/-- What an argument lends is stored on the stack. -/
theorem Machine.Live.exists_binding? {machine : Machine} (live : machine.Live)
    {argument : Expression} {site : Site} (lends : machine.argumentSite? argument = some site) :
    ∃ stored, machine.stack.binding? site = some stored := by
  obtain ⟨frame, stored, frameFound, found, -⟩ := live.owned_of_argumentSite? lends
  refine ⟨stored, ?_⟩
  rw [CallStack.binding?, CallStack.frame?_eq, frameFound, Option.bind_some, found]

section Splits

variable {maxDepth : Nat} {machine between after : Machine} {routine : Routine}
  {operation : String → String × Option String} {leftName rightName : String} {span : Span}
  {parameters : List Variable} {value : Value} {source second last : Expression}

/-- The frame of a routine that takes a text apart holds the text, and what its last name
stands for is the parameter or the variable that the last argument lends. -/
theorem Routine.Splits.holds_parameters (splits : routine.Splits operation leftName rightName)
    (live : machine.Live)
    (binds : BindsArguments maxDepth [source, second, last]
      (routine.splitSignature leftName rightName).parameters machine parameters between) :
    let called := (between.mark span).pushFrame
      (functionFrame (routine.splitSignature leftName rightName) span parameters)
    (∃ held, called.valueOf "source" = .ok held) ∧
      ∃ owner stored, called.ownerOf? rightName = some (owner, stored) ∧
        stored.declarator.type = ((machine.lent? last).map (·.declarator.type)).getD .text := by
  intro called
  let signature := routine.splitSignature leftName rightName
  have alike := binds.alike
  obtain ⟨fuel, finished⟩ := binds
  obtain ⟨names, bound⟩ := bindArguments_binds (evaluate_alike maxDepth fuel) _ _ machine _ _
    finished
  have distinct : (parameters.map Variable.name).Nodup := names ▸ splits.nodup_names
  obtain ⟨held, isSource⟩ := bound (Routine.parameter false .text "source", source)
    List.mem_cons_self
  obtain ⟨given, isLast⟩ := bound (Routine.parameter true .text rightName, last)
    (List.mem_cons_of_mem _ (List.mem_cons_of_mem _ List.mem_cons_self))
  constructor
  · have owns := (between.mark span).ownerOf?_parameter signature span distinct isSource
      (eq_none_of_bindParameter _ _ _ rfl)
    exact ⟨held, (Machine.valueOf_eq_ok_iff_of_ownerOf? owns).mpr ⟨rfl, rfl⟩⟩
  · cases lends : machine.argumentSite? last with
    | none =>
        rw [lends] at isLast
        have owns := (between.mark span).ownerOf?_parameter signature span distinct isLast rfl
        refine ⟨_, _, owns, ?_⟩
        rw [Machine.lent?, lends]
        rfl
    | some site =>
        rw [lends] at isLast
        obtain ⟨stored, found⟩ := live.exists_binding? lends
        have same := alike.stack.map_binding? site
        rw [found] at same
        obtain ⟨later, laterFound, declared⟩ := Option.map_eq_some_iff.mp same
        have marked : (between.mark span).holdings = between.holdings := rfl
        have owns := (between.mark span).ownerOf?_reference signature span distinct isLast rfl
          ((Machine.binding?_of_holdings_eq marked site).trans laterFound)
        refine ⟨site, later, owns, ?_⟩
        rw [Machine.lent?, lends, Option.bind_some, found, declared]
        rfl

/-- The result of a routine that takes a text apart has the type of the variable in which it is
stored. -/
theorem Routine.Splits.result_type (splits : routine.Splits operation leftName rightName)
    (live : machine.Live) {body : Statement}
    (binds : BindsArguments maxDepth [source, second, last]
      (routine.splitSignature leftName rightName).parameters machine parameters between)
    (runs : RunsCallee maxDepth (routine.splitSignature leftName rightName) body (some routine)
      ((between.mark span).pushFrame
        (functionFrame (routine.splitSignature leftName rightName) span parameters))
      value after) :
    value = .nothing ∨
      value.type = ((machine.lent? last).map (·.declarator.type)).getD .text := by
  obtain ⟨fuel, finished⟩ := runs
  change (runRoutine (evaluate maxDepth fuel) routine : Action Value) _ = _ at finished
  rw [splits.runRoutine_eq] at finished
  obtain ⟨⟨held, reads⟩, owner, stored, owns, declared⟩ := splits.holds_parameters live binds
  obtain ⟨middle, _, _, _, rightStored, -, writesLeft, rightOwned, isCast, -⟩ :=
    writes_of_splitRoutine (fun _ _ _ _ evaluates => ⟨fuel, evaluates⟩) reads finished
  -- assigning the first half has changed what a variable holds, but not its type
  have sameDeclarator := writesLeft.alike.map_ownerOf? rightName
  rw [rightOwned, owns, Option.map_some, Option.map_some, Option.some.injEq] at sameDeclarator
  rw [isCast, ← declared, ← sameDeclarator]
  exact Value.cast_eq_nothing_or_type_eq _ _

theorem Routine.Splits.storesResult_iff (splits : routine.Splits operation leftName rightName)
    {stored : Variable} : machine.StoresResult (some routine) [source, second, last] stored ↔
      machine.lent? last = some stored := by
  constructor
  · rintro ⟨-, argument, isLast, lends⟩
    cases isLast
    exact lends
  · intro lends
    refine ⟨?_, last, rfl, lends⟩
    cases splits with
    | split => exact .inl rfl
    | backSplit => exact .inr rfl

end Splits

theorem Machine.lent?_entered (machine : Machine) (span : Span) (argument : Expression) :
    (machine.entered span).lent? argument = machine.lent? argument := by
  have same := machine.holdings_entered span
  rw [lent?, lent?, argumentSite?_of_holdings_eq same]
  exact Option.bind_congr fun site _ => binding?_of_holdings_eq same site

/-! ## Main statement -/

/-- A call of a function that is declared with a result, of the program or of the library,
yields nothing or a value of the declared type, unless its body ends without giving anything
back and it warns of that.  There is one exception: `Split` and `BackSplit` yield nothing or a
value of the type of the variable that their last argument lends, if it lends one. -/
theorem calls_yield_what_they_declare {maxDepth : Nat} {machine after : Machine}
    (passed : machine.Passed) {span : Span} {name : String} {arguments : List Expression}
    {signature : FunctionSignature} {body : Statement} {routine : Option Routine} {value : Value}
    (resolves : resolve machine name arguments.length =
      .ok (some ⟨.function signature body, routine⟩))
    (results : signature.returns ≠ .nothing)
    (evaluates : Evaluates maxDepth (.call span name arguments) machine value after)
    (unwarned : ¬ machine.MissesReturn maxDepth span signature body arguments after) :
    ((∀ stored, machine.StoresResult routine arguments stored →
        stored.declarator.type = signature.returns) →
      value = .nothing ∨ value.type = signature.returns) ∧
    ∀ stored, machine.StoresResult routine arguments stored →
      value = .nothing ∨ value.type = stored.declarator.type := by
  obtain ⟨-, parameters, between, result, last, binds, runs, isResult, ends⟩ :=
    (evaluates_call_function_iff resolves fun refused => results refused.1).mp evaluates
  obtain rfl : value = result := by rw [isResult, FunctionSignature.conclude, if_neg results]
  cases routine with
  | none =>
      obtain ⟨flow, ended, executes, yields | rfl⟩ := runs.result_of_body results
      · exact ⟨fun _ => yields, fun stored stores => absurd stores not_storesResult_none⟩
      · refine absurd ⟨parameters, between, flow, ended, binds, executes, ?_⟩ unwarned
        rw [ends]
        rfl
  | some routine =>
      have isEntry := passed.entry_eq resolves
      obtain ⟨isText, ⟨operation, takes⟩ | ⟨operation, leftName, rightName, splits⟩⟩ :=
        Routine.takes_or_splits isEntry results
      · have yields := takes.result_type runs
        rw [← isText] at yields
        exact ⟨fun _ => yields, fun stored stores => absurd stores takes.not_storesResult⟩
      · cases isEntry.trans splits.entry_eq
        have number := (Callable.answers_iff.mp (Machine.answers_of_resolve resolves)).2
        obtain ⟨source, second, last, rfl⟩ := List.length_eq_three.mp number.symm
        have live : machine.Live := live_invariant.of_passed passed
        have deeper : Machine.Live { machine with depth := machine.depth + 1 } := live
        have yields := splits.result_type (deeper.mark span) binds runs
        rw [← Machine.entered, Machine.lent?_entered] at yields
        simp only [splits.storesResult_iff]
        cases lends : machine.lent? last with
        | none =>
            rw [lends] at yields
            exact ⟨fun _ => yields, fun stored isSome =>
              absurd isSome.symm (Option.some_ne_none stored)⟩
        | some stored =>
            rw [lends] at yields
            constructor
            · intro agrees
              rw [← agrees stored rfl]
              exact yields
            · rintro other isStored
              rw [← Option.some.inj isStored]
              exact yields

/-- `Split` is declared to yield a text.  Its last argument lends it a number, and what it yields
is a number. -/
theorem split_yields_a_number :
    let place : Span := .firstCharacter
    let maxDepth : Nat := Limits.standard.maxDepth
    let declares : Statement := .compound place
      [.variable ⟨place, true, .text, "a"⟩ (some (.literal place .nothing)),
        .variable ⟨place, true, .number, "b"⟩ (some (.literal place .nothing))]
    let trace : List Machine := ((execute maxDepth 9 declares : Tracing Flow) .initial).passed
    let machine : Machine := .firstOf (fun machine =>
      decide ((machine.valueOf "b").toOption = some .nothing)) trace
    let arguments : List Expression :=
      [.literal place (.text "1 2"), .identifier place "a", .identifier place "b"]
    let signature : FunctionSignature := Routine.split.splitSignature "head" "tail"
    machine.Passed ∧
      resolve machine "Split" arguments.length =
        .ok (some ⟨.function signature (.empty .beforeSource), some .split⟩) ∧
      signature.returns = .text ∧
      ∃ value after, Evaluates maxDepth (.call place "Split" arguments) machine value after ∧
        ¬ machine.MissesReturn maxDepth place signature (.empty .beforeSource) arguments after ∧
        (∃ stored, machine.StoresResult (some .split) arguments stored ∧
          stored.declarator.type = .number) ∧
        value ≠ .nothing ∧ value.type = .number := by
  intro place maxDepth declares trace machine arguments signature
  have passed : machine.Passed :=
    .executing (.start .standard) (Machine.firstOf_mem (by decide +kernel))
  have resolves : resolve machine "Split" arguments.length =
      .ok (some ⟨.function signature (.empty .beforeSource), some .split⟩) :=
    (immune_invariant.of_passed passed).resolve .split
  have lends : (machine.lent? (.identifier place "b")).map (·.declarator.type) = some .number := by
    decide +kernel
  obtain ⟨stored, isLent, isNumber⟩ := Option.map_eq_some_iff.mp lends
  have stores : machine.StoresResult (some .split) arguments stored :=
    ⟨.inl rfl, _, rfl, isLent⟩
  have finishes : ((evaluate maxDepth 9 (.call place "Split" arguments) : Action Value)
      machine).finishesWith (fun value after => !value.isNothing && after.emitted.isEmpty) =
        true := by
    decide +kernel
  obtain ⟨value, after, finished, tested⟩ := Outcome.exists_of_finishesWith finishes
  obtain ⟨present, silent⟩ := Bool.and_eq_true_iff.mp tested
  have unwarned : ¬ machine.MissesReturn maxDepth place signature (.empty .beforeSource)
      arguments after := by
    rintro ⟨_, _, _, ended, -, -, emits⟩
    rw [emits] at silent
    simp at silent
  have evaluates : Evaluates maxDepth (.call place "Split" arguments) machine value after :=
    ⟨9, finished⟩
  obtain ⟨-, yields⟩ := calls_yield_what_they_declare passed resolves nofun evaluates unwarned
  have given : value ≠ .nothing := by
    rintro rfl
    cases present
  refine ⟨passed, resolves, rfl, value, after, evaluates, unwarned, ⟨stored, stores, isNumber⟩,
    given, ?_⟩
  rw [← isNumber]
  exact (yields stored stores).resolve_left given

end Plainspoken
