import Plainspoken.Proofs.Reads
import Plainspoken.Proofs.ReferenceChains
import Plainspoken.Proofs.RoutineImmunity
import Plainspoken.Proofs.UsedValues

/-!
# Routines that write back

`Split` and `BackSplit` take a text apart and assign its halves to their second and third
parameters, by name, like any assignment of a program.  The names are looked up in the frame of
the routine, where the parameters are found before any variable of the program.  What the
parameters refer to was settled when they were bound, so the names of the arguments and those of
the parameters have nothing to do with each other.

A call therefore comes down to two writes, one after the other, to the variables that own the
storage of its arguments.
-/

namespace Plainspoken

open Stepping Evaluation

/-- The routines that take a text apart, with what they do to it and the parameters that the
halves are assigned to. -/
inductive Routine.Splits : Routine → (String → String × Option String) → String → String → Prop
    where
  | split : Splits .split Words.splitFirst "head" "tail"
  | backSplit : Splits .backSplit Words.splitLast "body" "tip"

namespace Routine

/-- How these routines are declared. -/
def splitSignature (routine : Routine) (leftName rightName : String) : FunctionSignature :=
  ⟨.beforeSource, routine.name, false, [parameter false .text "source",
    parameter true .text leftName, parameter true .text rightName], .text⟩

namespace Splits

variable {routine : Routine} {operation : String → String × Option String}
  {leftName rightName : String} (splits : routine.Splits operation leftName rightName)

include splits

private theorem arity_eq : routine.arity = 3 := by
  cases splits <;> rfl

theorem entry_eq : routine.entry =
    ⟨.function (routine.splitSignature leftName rightName) (.empty .beforeSource),
      some routine⟩ := by
  cases splits <;> rfl

theorem runRoutine_eq (evaluate : Expression → Action Value) :
    runRoutine evaluate routine = splitRoutine evaluate operation leftName rightName := by
  cases splits <;> rfl

theorem nodup_names : ["source", leftName, rightName].Nodup := by
  cases splits <;> decide

end Splits

end Routine

/-- The first half of a value that is taken apart as a text; nothing has no halves. -/
def Value.firstHalf (operation : String → String × Option String) (given : Value) : Value :=
  ((given.asText?.map operation).map Prod.fst).elim .nothing .text

/-- The second half of a value that is taken apart as a text, if there is one. -/
def Value.secondHalf (operation : String → String × Option String) (given : Value) : Value :=
  ((given.asText?.map operation).bind Prod.snd).elim .nothing .text

theorem Value.cast_nothing (type : ValueType) : Value.nothing.cast type = .nothing := by
  cases type <;> rfl

theorem Value.asText?_cast_text (given : Value) : (given.cast .text).asText? = given.asText? := by
  cases given <;> rfl

@[simp]
theorem Value.firstHalf_cast_text (operation : String → String × Option String) (given : Value) :
    (given.cast .text).firstHalf operation = given.firstHalf operation := by
  rw [firstHalf, asText?_cast_text, firstHalf]

@[simp]
theorem Value.secondHalf_cast_text (operation : String → String × Option String) (given : Value) :
    (given.cast .text).secondHalf operation = given.secondHalf operation := by
  rw [secondHalf, asText?_cast_text, secondHalf]

/-! ## Owners seen from a new frame -/

theorem Frame.find?_functionFrame (signature : FunctionSignature) (span : Span)
    {parameters : List Variable} (distinct : (parameters.map Variable.name).Nodup)
    {binding : Variable} (member : binding ∈ parameters) :
    (functionFrame signature span parameters).find? binding.name = some 0 := by
  have bound := Frame.binding?_functionFrame signature span distinct member
  have single : (functionFrame signature span parameters).scopes.length = 1 := by
    have kept (frame : Frame) :
        (parameters.foldl Frame.insertVariable frame).scopes.length = frame.scopes.length := by
      clear distinct member bound
      induction parameters generalizing frame with
      | nil => rfl
      | cons first others ih =>
          rw [List.foldl_cons, ih]
          exact List.length_modifyHead
    exact List.length_modifyHead.trans (kept _)
  obtain ⟨scope, isOnly⟩ := List.length_eq_one_iff.mp single
  rw [Frame.binding?, Frame.scope?, isOnly] at bound
  have inScope : scope.binding? binding.name = some binding := bound
  rw [Frame.find?, isOnly, Frame.findIn, inScope]
  rfl

namespace Machine

section Frames

variable {machine inside : Machine} {frame : Frame}

private theorem binding?_pushFrame_of_le {site : Site} (frame : Frame)
    (below : site.frame ≤ machine.stack.height) :
    (machine.pushFrame frame).stack.binding? site = machine.stack.binding? site := by
  rw [pushFrame, CallStack.binding?, CallStack.frame?_push, if_neg (by omega)]
  rfl

/-- When a frame is taken off, the variables of the frames below it are what they have become
under it, and there are no others. -/
theorem binding?_popFrame_of_alike (alike : (machine.pushFrame frame).Alike inside) (site : Site) :
    inside.popFrame.stack.binding? site =
      if site.frame ≤ machine.stack.height then inside.stack.binding? site
      else machine.stack.binding? site := by
  have height : inside.stack.height = machine.stack.height + 1 := alike.stack.height_eq
  split
  · next below =>
    rw [popFrame, CallStack.binding?, CallStack.frame?_pop _ (by omega)]
    rfl
  · next above =>
    have absent {stack : CallStack} (low : stack.height ≤ machine.stack.height) :
        stack.binding? site = none := by
      by_contra present
      obtain ⟨binding, found⟩ := Option.ne_none_iff_exists'.mp present
      exact above ((CallStack.le_height_of_binding? found).trans low)
    have popped : inside.popFrame.stack.height ≤ machine.stack.height := by
      have height' := inside.stack.height_pop
      rw [height] at height'
      exact height'.le
    rw [absent popped, absent (Nat.le_refl _)]

end Frames

theorem ownerOf?_eq_some_iff {machine : Machine} {name : String} {owner : Site}
    {stored : Variable} :
    machine.ownerOf? name = some (owner, stored) ↔ ∃ site, machine.stack.find? name = some site ∧
      machine.stack.owner site = owner ∧ machine.stack.binding? owner = some stored := by
  simp only [Machine.ownerOf?, Option.bind_eq_bind, Option.bind_eq_some_iff, Option.pure_def,
    Option.some.injEq, Prod.mk.injEq]
  constructor
  · rintro ⟨site, found, binding, bindingFound, rfl, rfl⟩
    exact ⟨site, found, rfl, bindingFound⟩
  · rintro ⟨site, found, rfl, bindingFound⟩
    exact ⟨site, found, stored, bindingFound, rfl, rfl⟩

private theorem binding?_of_ownerOf? {machine : Machine} {name : String} {owner : Site}
    {stored : Variable} (owns : machine.ownerOf? name = some (owner, stored)) :
    machine.stack.binding? owner = some stored := by
  obtain ⟨_, -, -, bindingFound⟩ := ownerOf?_eq_some_iff.mp owns
  exact bindingFound

section Parameters

variable (machine : Machine) (signature : FunctionSignature) (span : Span)
  {parameters : List Variable} (distinct : (parameters.map Variable.name).Nodup)
  {binding : Variable} (member : binding ∈ parameters)

include distinct member

/-- In a frame that has just been opened a parameter is found before anything else. -/
theorem find?_functionFrame :
    (machine.pushFrame (functionFrame signature span parameters)).stack.find? binding.name =
      some ⟨machine.stack.height + 1, 0, binding.name⟩ := by
  have found := Frame.find?_functionFrame signature span distinct member
  rw [pushFrame, CallStack.find?]
  simp only [CallStack.push, found]
  rfl

theorem binding?_functionFrame :
    (machine.pushFrame (functionFrame signature span parameters)).stack.binding?
      ⟨machine.stack.height + 1, 0, binding.name⟩ = some binding := by
  rw [CallStack.binding?_of_frame_eq_height rfl]
  exact Frame.binding?_functionFrame signature span distinct member

/-- A parameter that refers to nothing owns its storage. -/
theorem ownerOf?_parameter (alone : binding.reference = none) :
    (machine.pushFrame (functionFrame signature span parameters)).ownerOf? binding.name =
      some (⟨machine.stack.height + 1, 0, binding.name⟩, binding) := by
  have found := binding?_functionFrame machine signature span distinct member
  exact ownerOf?_eq_some_iff.mpr ⟨_, find?_functionFrame machine signature span distinct member,
    CallStack.owner_eq_self found alone, found⟩

/-- A parameter that refers to a variable below its frame stands for that variable. -/
theorem ownerOf?_reference {owner : Site} {stored : Variable}
    (refers : binding.reference = some owner)
    (found : machine.stack.binding? owner = some stored) :
    (machine.pushFrame (functionFrame signature span parameters)).ownerOf? binding.name =
      some (owner, stored) := by
  have bound := binding?_functionFrame machine signature span distinct member
  refine ownerOf?_eq_some_iff.mpr ⟨_, find?_functionFrame machine signature span distinct member,
    ?_, binding?_pushFrame found (functionFrame signature span parameters)⟩
  simp [CallStack.owner, bound, refers]

end Parameters

end Machine

/-! ## One write -/

namespace Machine

/-- A value is stored at a site, and no other variable changes. -/
structure Writes (machine : Machine) (site : Site) (value : Value) (after : Machine) : Prop where
  alike : machine.Alike after
  binding? : ∀ other, after.stack.binding? other = (machine.stack.binding? other).map fun binding =>
    if other = site then binding.store value else binding

/-- A name has the same owner on both machines, declared the same way. -/
theorem Alike.ownerOf? {machine after : Machine} (alike : machine.Alike after) {name : String}
    {owner : Site} {stored : Variable} (owns : machine.ownerOf? name = some (owner, stored)) :
    ∃ later, after.ownerOf? name = some (owner, later) ∧
      later.declarator = stored.declarator := by
  obtain ⟨site, found, isOwner, bindingFound⟩ := ownerOf?_eq_some_iff.mp owns
  have related := alike.stack.binding? owner
  rw [bindingFound] at related
  cases laterFound : after.stack.binding? owner with
  | none =>
      rw [laterFound] at related
      cases related
  | some later =>
      rw [laterFound] at related
      cases related with
      | some upheld =>
          exact ⟨later, ownerOf?_eq_some_iff.mpr ⟨site, (alike.stack.find? name).trans found,
            (alike.stack.owner site).trans isOwner, laterFound⟩, upheld.declarator⟩

theorem argumentSite?_of_holdings_eq {machine after : Machine}
    (same : after.holdings = machine.holdings) (argument : Expression) :
    after.argumentSite? argument = machine.argumentSite? argument := by
  unfold argumentSite?
  simp only [find?_of_holdings_eq same, binding?_of_holdings_eq same, owner_of_holdings_eq same]

/-- A name lends the storage of its owner, if that may be assigned. -/
theorem argumentSite?_of_ownerOf? {machine : Machine} (passed : machine.Passed) {name : String}
    {owner : Site} {stored : Variable} (owns : machine.ownerOf? name = some (owner, stored))
    (assignable : stored.declarator.isMutable = true) (place : Span) :
    machine.argumentSite? (.identifier place name) = some owner := by
  obtain ⟨site, found, rfl, targetFound⟩ := ownerOf?_eq_some_iff.mp owns
  obtain ⟨binding, bindingFound⟩ :=
    Option.isSome_iff_exists.mp (CallStack.isSome_binding?_of_find? found)
  refine argumentSite?_identifier found bindingFound ?_ place
  by_contra constant
  obtain ⟨scope, refers, member⟩ :=
    (refersAssignably_invariant.of_passed passed).of_binding? bindingFound
  have alone := refers binding member (by simpa using constant)
  rw [CallStack.owner_eq_self bindingFound alone, bindingFound] at targetFound
  cases targetFound
  exact constant assignable

end Machine

/-- Two writes in a frame of their own, to variables below it, are all that is left of the frame
when it is taken off. -/
theorem Machine.binding?_of_writes {machine middle last : Machine} {frame : Frame}
    {left right : Site} {leftValue rightValue : Value}
    (leftBelow : left.frame ≤ machine.stack.height)
    (rightBelow : right.frame ≤ machine.stack.height)
    (writesLeft : (machine.pushFrame frame).Writes left leftValue middle)
    (writesRight : middle.Writes right rightValue last) (site : Site) :
    last.popFrame.stack.binding? site =
      ((machine.stack.binding? site).map fun binding =>
        if site = left then binding.store leftValue else binding).map fun binding =>
          if site = right then binding.store rightValue else binding := by
  rw [binding?_popFrame_of_alike (writesLeft.alike.trans writesRight.alike)]
  split
  · next below =>
    rw [writesRight.binding?, writesLeft.binding?, binding?_pushFrame_of_le frame below]
  · next above =>
    have notLeft : site ≠ left := fun same => above (same ▸ leftBelow)
    have notRight : site ≠ right := fun same => above (same ▸ rightBelow)
    simp [notLeft, notRight]

section Writes

variable {maxDepth : Nat} {machine after : Machine} {value : Value}

private theorem writes_of_assign_literal {span place literalPlace : Span} {name : String}
    {content : Value} (evaluates : Evaluates maxDepth
      (.assign span (.identifier place name) (.literal literalPlace content)) machine value after) :
    ∃ owner stored, machine.ownerOf? name = some (owner, stored) ∧
      value = content.cast stored.declarator.type ∧ machine.Writes owner value after := by
  have alike := evaluates.alike
  obtain ⟨-, _, owner, stored, result, between, isName, -, owns, -, yields, -, isCast, ends⟩ :=
    evaluates_assign_iff.mp evaluates
  cases isName
  obtain ⟨read, literal, restored⟩ := yields_iff.mp yields
  obtain ⟨-, rfl, rfl⟩ := evaluates_literal_iff.mp literal
  refine ⟨owner, stored, owns, isCast, alike, fun other => ?_⟩
  have same : between.holdings = machine.holdings := by
    rw [restored]
    split <;> simp
  rw [ends, Machine.binding?_of_holdings_eq (Machine.holdings_concluded _ value),
    Machine.binding?_store, Machine.binding?_of_holdings_eq same]
  by_cases isOwner : other = owner <;> simp [isOwner]

/-- A routine that takes a text apart assigns the halves one after the other. -/
theorem writes_of_splitRoutine {evaluate : Expression → Action Value}
    {operation : String → String × Option String} {leftName rightName : String} {held : Value}
    (evaluated : ∀ expression machine value after,
      evaluate expression machine = .finished value after →
        Evaluates maxDepth expression machine value after)
    (source : machine.valueOf "source" = .ok held)
    (finished : (splitRoutine evaluate operation leftName rightName : Action Value) machine =
      .finished value after) :
    ∃ middle left leftStored right rightStored,
      machine.ownerOf? leftName = some (left, leftStored) ∧
      machine.Writes left ((held.firstHalf operation).cast leftStored.declarator.type) middle ∧
      middle.ownerOf? rightName = some (right, rightStored) ∧
      value = (held.secondHalf operation).cast rightStored.declarator.type ∧
      middle.Writes right value after := by
  simp only [splitRoutine, Action.finished_bind, Action.finished_valueOf, Action.finished_read]
    at finished
  obtain ⟨_, _, ⟨reads, rfl⟩, _, _, ⟨rfl, rfl⟩, stored, middle, assignsLeft, assignsRight⟩ :=
    finished
  obtain rfl := Except.ok.inj (reads.symm.trans source)
  obtain ⟨left, leftStored, leftOwns, rfl, writesLeft⟩ :=
    writes_of_assign_literal (evaluated _ _ _ _ assignsLeft)
  obtain ⟨right, rightStored, rightOwns, isCast, writesRight⟩ :=
    writes_of_assign_literal (evaluated _ _ _ _ assignsRight)
  exact ⟨middle, left, leftStored, right, rightStored, leftOwns, writesLeft, rightOwns, isCast,
    writesRight⟩

end Writes

/-! ## The call -/

/-- The parameters of a routine that takes a text apart, when the call is made. -/
def splitParameters (leftName rightName : String) (given leftRead rightRead : Value)
    (site : Option Site) (left right : Site) : List Variable :=
  [bindParameter (Routine.parameter false .text "source") (given.cast .text) site,
    bindParameter (Routine.parameter true .text leftName) (leftRead.cast .text) (some left),
    bindParameter (Routine.parameter true .text rightName) (rightRead.cast .text) (some right)]

section Calls

variable {maxDepth : Nat} {machine after : Machine} {routine : Routine}
  {operation : String → String × Option String} {leftName rightName first second : String}
  {span firstPlace secondPlace : Span} {source : Expression} {value : Value} {left right : Site}

/-- The call evaluates its first argument, reads the others, and runs the routine in a frame
where two parameters refer to the storage that the names lend. -/
theorem Routine.Splits.opens (splits : routine.Splits operation leftName rightName)
    (immune : machine.Immune)
    (leftLent : machine.argumentSite? (.identifier firstPlace first) = some left)
    (rightLent : machine.argumentSite? (.identifier secondPlace second) = some right)
    (evaluates : Evaluates maxDepth (.call span routine.name
      [source, .identifier firstPlace first, .identifier secondPlace second])
      machine value after) :
    ∃ (given : Value) (between bound : Machine) (leftRead rightRead : Value) (site : Option Site)
      (last : Machine), Evaluates maxDepth source (machine.entered span) given between ∧
      bound.holdings = between.holdings ∧
      RunsCallee maxDepth (routine.splitSignature leftName rightName) (.empty .beforeSource)
        (some routine)
        (bound.pushFrame (functionFrame (routine.splitSignature leftName rightName) span
          (splitParameters leftName rightName given leftRead rightRead site left right)))
        value last ∧
      after = last.popFrame.concluded value := by
  have resolves := immune.resolve routine
  rw [splits.arity_eq, splits.entry_eq] at resolves
  obtain ⟨-, parameters, bound, result, last, binds, runs, isResult, ends⟩ :=
    (evaluates_call_function_iff resolves (by simp [Routine.splitSignature])).mp evaluates
  obtain ⟨given, between, others, givenEvaluates, bindsNames, isSource⟩ :=
    bindsArguments_cons_iff.mp binds
  obtain ⟨leftRead, afterLeft, other, leftEvaluates, bindsName, isLeft⟩ :=
    bindsArguments_cons_iff.mp bindsNames
  obtain ⟨rightRead, afterRight, none, rightEvaluates, bindsNone, isRight⟩ :=
    bindsArguments_cons_iff.mp bindsName
  obtain ⟨rfl, rfl⟩ := bindsArguments_nil_iff.mp bindsNone
  have lentBetween (argument : Expression) :
      between.argumentSite? argument = machine.argumentSite? argument :=
    (givenEvaluates.alike.argumentSite? argument).trans
      (Machine.argumentSite?_of_holdings_eq (machine.holdings_entered span) argument)
  rw [lentBetween, leftLent] at isLeft
  rw [leftEvaluates.alike.argumentSite?, lentBetween, rightLent] at isRight
  obtain ⟨-, -, rfl⟩ := evaluates_identifier_iff.mp leftEvaluates
  obtain ⟨-, -, rfl⟩ := evaluates_identifier_iff.mp rightEvaluates
  subst isRight isLeft isSource
  obtain rfl : value = result := isResult
  let afterReads :=
    (((between.entered firstPlace).concluded leftRead).entered secondPlace).concluded rightRead
  exact ⟨given, between, afterReads.mark span, leftRead, rightRead, _, last, givenEvaluates, rfl,
    runs, ends⟩

/-- In its frame the routine finds the variables that its parameters refer to, and writes the
halves of the value it is given to them. -/
theorem Routine.Splits.writes {body : Statement} {bound last : Machine}
    {given leftRead rightRead : Value} {site : Option Site} {leftBefore rightBefore : Variable}
    (splits : routine.Splits operation leftName rightName)
    (leftFound : bound.stack.binding? left = some leftBefore)
    (rightFound : bound.stack.binding? right = some rightBefore)
    (runs : RunsCallee maxDepth (routine.splitSignature leftName rightName) body (some routine)
      (bound.pushFrame (functionFrame (routine.splitSignature leftName rightName) span
        (splitParameters leftName rightName given leftRead rightRead site left right)))
      value last) :
    ∃ middle,
      (bound.pushFrame (functionFrame (routine.splitSignature leftName rightName) span
        (splitParameters leftName rightName given leftRead rightRead site left right))).Writes left
          ((given.firstHalf operation).cast leftBefore.declarator.type) middle ∧
      value = (given.secondHalf operation).cast rightBefore.declarator.type ∧
      middle.Writes right value last := by
  obtain ⟨fuel, finished⟩ := runs
  change (runRoutine (evaluate maxDepth fuel) routine : Action Value) _ = _ at finished
  rw [splits.runRoutine_eq] at finished
  let signature := routine.splitSignature leftName rightName
  let parameters := splitParameters leftName rightName given leftRead rightRead site left right
  let called := bound.pushFrame (functionFrame signature span parameters)
  have distinct : (parameters.map Variable.name).Nodup := splits.nodup_names
  have held : called.valueOf "source" = .ok (given.cast .text) :=
    (Machine.valueOf_eq_ok_iff_of_ownerOf? (bound.ownerOf?_parameter signature span distinct
      List.mem_cons_self (eq_none_of_bindParameter _ _ _ rfl))).mpr ⟨rfl, rfl⟩
  have leftOwns : called.ownerOf? leftName = some (left, leftBefore) :=
    bound.ownerOf?_reference signature span distinct
      (List.mem_cons_of_mem _ List.mem_cons_self) rfl leftFound
  have rightOwns : called.ownerOf? rightName = some (right, rightBefore) :=
    bound.ownerOf?_reference signature span distinct
      (List.mem_cons_of_mem _ (List.mem_cons_of_mem _ List.mem_cons_self)) rfl rightFound
  obtain ⟨middle, _, _, _, _, leftOwned, writesLeft, rightOwned, isCast, writesRight⟩ :=
    writes_of_splitRoutine (fun _ _ _ _ evaluates => ⟨fuel, evaluates⟩) held finished
  cases leftOwned.symm.trans leftOwns
  obtain ⟨later, laterOwns, sameDeclarator⟩ := writesLeft.alike.ownerOf? rightOwns
  cases rightOwned.symm.trans laterOwns
  rw [Value.firstHalf_cast_text] at writesLeft
  rw [Value.secondHalf_cast_text, sameDeclarator] at isCast
  exact ⟨middle, writesLeft, isCast, writesRight⟩

end Calls

/-! ## Main statement -/

/-- A call of `Split` or `BackSplit` with the names of two variables, whatever these names are,
evaluates its first argument and then writes the halves of that value, cast to their types, to
the variables that own the storage of the names, the second half last.  No other variable
changes any more, and the call yields what it has written last.  If the first argument is
nothing, so are both halves. -/
theorem split_routines_write_back {maxDepth : Nat} {machine after : Machine}
    (passed : machine.Passed) {routine : Routine} {operation : String → String × Option String}
    {leftName rightName : String} (splits : routine.Splits operation leftName rightName)
    {span firstPlace secondPlace : Span} {source : Expression} {first second : String}
    {value : Value}
    (evaluates : Evaluates maxDepth (.call span routine.name
      [source, .identifier firstPlace first, .identifier secondPlace second]) machine value after)
    {left right : Site} {leftStored rightStored : Variable}
    (leftOwns : machine.ownerOf? first = some (left, leftStored))
    (rightOwns : machine.ownerOf? second = some (right, rightStored))
    (leftAssignable : leftStored.declarator.isMutable = true)
    (rightAssignable : rightStored.declarator.isMutable = true) :
    ∃ given between leftBefore rightBefore,
      Evaluates maxDepth source (machine.entered span) given between ∧
      between.stack.binding? left = some leftBefore ∧
      leftBefore.declarator = leftStored.declarator ∧
      between.stack.binding? right = some rightBefore ∧
      rightBefore.declarator = rightStored.declarator ∧
      value = (given.secondHalf operation).cast rightStored.declarator.type ∧
      after.stack.binding? right = some (rightBefore.store value) ∧
      (left ≠ right → after.stack.binding? left = some (leftBefore.store
        ((given.firstHalf operation).cast leftStored.declarator.type))) ∧
      (∀ site, site ≠ left → site ≠ right →
        after.stack.binding? site = between.stack.binding? site) ∧
      (given = .nothing → value = .nothing ∧
        (given.firstHalf operation).cast leftStored.declarator.type = .nothing) := by
  have leftLent := Machine.argumentSite?_of_ownerOf? passed leftOwns leftAssignable firstPlace
  have rightLent := Machine.argumentSite?_of_ownerOf? passed rightOwns rightAssignable secondPlace
  obtain ⟨given, between, bound, leftRead, rightRead, site, last, givenEvaluates, same, runs,
      rfl⟩ := splits.opens (immune_invariant.of_passed passed) leftLent rightLent evaluates
  -- The owners are those that the names have before the call: evaluating its first argument
  -- changes what variables hold, and nothing else about them.
  rw [← Machine.ownerOf?_of_holdings_eq (machine.holdings_entered span)] at leftOwns rightOwns
  obtain ⟨leftBefore, leftOwned, leftSame⟩ := givenEvaluates.alike.ownerOf? leftOwns
  obtain ⟨rightBefore, rightOwned, rightSame⟩ := givenEvaluates.alike.ownerOf? rightOwns
  have leftFound := Machine.binding?_of_ownerOf? leftOwned
  have rightFound := Machine.binding?_of_ownerOf? rightOwned
  have unchanged (other : Site) := Machine.binding?_of_holdings_eq same other
  obtain ⟨middle, writesLeft, isCast, writesRight⟩ := splits.writes
    ((unchanged left).trans leftFound) ((unchanged right).trans rightFound) runs
  rw [leftSame] at writesLeft
  rw [rightSame] at isCast
  have below {owner : Site} {stored : Variable}
      (found : between.stack.binding? owner = some stored) : owner.frame ≤ bound.stack.height := by
    rw [Machine.height_of_holdings_eq same]
    exact CallStack.le_height_of_binding? found
  have final (other : Site) :=
    (Machine.binding?_of_holdings_eq (Machine.holdings_concluded last.popFrame value) other).trans
      (Machine.binding?_of_writes (below leftFound) (below rightFound) writesLeft writesRight other)
  simp only [unchanged] at final
  refine ⟨given, between, leftBefore, rightBefore, givenEvaluates, leftFound, leftSame, rightFound,
    rightSame, isCast, ?_, fun different => ?_, fun other notLeft notRight => ?_, ?_⟩
  · rw [final, rightFound, Option.map_some, Option.map_some, if_pos rfl]
    split <;> rfl
  · rw [final, leftFound, Option.map_some, Option.map_some, if_pos rfl, if_neg different]
  · simp [final, notLeft, notRight]
  · rintro rfl
    rw [isCast]
    exact ⟨Value.cast_nothing _, Value.cast_nothing _⟩

/-- A program names its variables like the parameters of `Split`, but the other way round.  The
first word goes to its `tail`, and the second one to its `head`, which is a fact. -/
theorem halves_reach_variables_named_like_parameters :
    let place : Span := .firstCharacter
    let maxDepth : Nat := Limits.standard.maxDepth
    let declares : Statement := .compound place
      [.variable ⟨place, true, .text, "tail"⟩ (some (.literal place .nothing)),
        .variable ⟨place, true, .fact, "head"⟩ (some (.literal place .nothing))]
    let trace : List Machine := ((execute maxDepth 9 declares : Tracing Flow) .initial).passed
    let machine : Machine := .firstOf (fun machine =>
      decide ((machine.valueOf "head").toOption = some .nothing)) trace
    let splits : Expression := .call place "Split"
      [.literal place (.text "a b"), .identifier place "tail", .identifier place "head"]
    machine.Passed ∧ ∃ value after, Evaluates maxDepth splits machine value after ∧
      value = .fact true ∧
      (after.stack.binding? ⟨0, 2, "tail"⟩).map Variable.value = some (.text "a") ∧
      (after.stack.binding? ⟨0, 2, "head"⟩).map Variable.value = some (.fact true) := by
  intro place maxDepth declares trace machine splits
  have passed : machine.Passed :=
    .executing (.start .standard) (Machine.firstOf_mem (by decide +kernel))
  have owner (name : String) (type : ValueType)
      (found : (machine.ownerOf? name).map (fun owned => (owned.1, owned.2.declarator)) =
        some (⟨0, 2, name⟩, ⟨place, true, type, name⟩)) :
      ∃ stored, machine.ownerOf? name = some (⟨0, 2, name⟩, stored) ∧
        stored.declarator = ⟨place, true, type, name⟩ := by
    obtain ⟨⟨site, stored⟩, owns, same⟩ := Option.map_eq_some_iff.mp found
    obtain ⟨rfl, declared⟩ := Prod.mk.inj same
    exact ⟨stored, owns, declared⟩
  obtain ⟨leftStored, leftOwns, leftDeclared⟩ := owner "tail" .text (by decide +kernel)
  obtain ⟨rightStored, rightOwns, rightDeclared⟩ := owner "head" .fact (by decide +kernel)
  have finishes : ((evaluate maxDepth 9 splits : Action Value) machine).finishesWith
      (fun _ _ => true) = true := by
    decide +kernel
  obtain ⟨value, after, finished, -⟩ := Outcome.exists_of_finishesWith finishes
  have evaluates : Evaluates maxDepth splits machine value after := ⟨9, finished⟩
  obtain ⟨given, between, leftBefore, rightBefore, givenEvaluates, -, -, -, -, isCast, right,
    left, -⟩ := split_routines_write_back passed .split evaluates leftOwns rightOwns
      (by rw [leftDeclared]) (by rw [rightDeclared])
  obtain ⟨-, rfl, -⟩ := evaluates_literal_iff.mp givenEvaluates
  rw [rightDeclared] at isCast
  rw [leftDeclared] at left
  have isFact : value = .fact true := isCast.trans (by decide +kernel)
  have isText : ((Value.text "a b").firstHalf Words.splitFirst).cast .text = .text "a" := by
    decide +kernel
  refine ⟨passed, value, after, evaluates, isFact, ?_, ?_⟩
  · rw [left (by decide), isText]
    rfl
  · rw [right, isFact]
    rfl

end Plainspoken
