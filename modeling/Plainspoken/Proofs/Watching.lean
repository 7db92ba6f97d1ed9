import Plainspoken.Proofs.Tracing

/-!
# Nodes in progress

A run is inside several nodes of its program at once: a block, a call in it, the body
that the call runs, and so on.  A watched action records every machine that it passes
through together with the nodes that have begun and not finished there, the innermost
first.  Of every such node the machine is known on which it began.

A node that is halted does not finish.  It stays among the nodes in progress when scopes
are closed on the way out, and what it had opened may still be open then.

Apart from what is recorded, a watched evaluation is the traced evaluation.
-/

namespace Plainspoken

open Stepping Evaluation

inductive Node where
  | expression (content : Expression)
  | statement (content : Statement)

/-- A node that has begun, and the machine on which it did. -/
structure Activity where
  node : Node
  start : Machine

/-- A machine that is passed, and the nodes in progress there, the innermost first. -/
structure Moment where
  path : List Activity
  machine : Machine

/-- How a watched action ends.  What halts it happens at a moment of its own. -/
inductive Conclusion (α : Type) where
  | finished (result : α) (machine : Machine)
  | halted (reason : Halt) (moment : Moment)
  | exhausted

/-- How an action ended, whatever was in progress. -/
def Conclusion.outcome {α : Type} : Conclusion α → Outcome α
  | .finished result machine => .finished result machine
  | .halted reason moment => .halted reason moment.machine
  | .exhausted => .exhausted

/-- The moments that an action passed through, and how it ended. -/
structure Watch (α : Type) where
  passed : List Moment
  ending : Conclusion α

/-- The machines that an action passed through, and how it ended. -/
def Watch.trace {α : Type} (watch : Watch α) : Trace α :=
  ⟨watch.passed.map Moment.machine, watch.ending.outcome⟩

/-- An action that is watched, inside the nodes that are in progress when it begins. -/
def Watching (α : Type) : Type :=
  List Activity → Machine → Watch α

namespace Watching

variable {α β : Type}

def andThen (first : Watching α) (second : α → Watching β) : Watching β :=
  fun path machine =>
    match first path machine with
    | ⟨passed, .finished result between⟩ =>
        ⟨passed ++ (second result path between).passed, (second result path between).ending⟩
    | ⟨passed, .halted reason moment⟩ => ⟨passed, .halted reason moment⟩
    | ⟨passed, .exhausted⟩ => ⟨passed, .exhausted⟩

def finallyChange (action : Watching α) (change : Machine → Machine) : Watching α :=
  fun path machine =>
    match action path machine with
    | ⟨passed, .finished result after⟩ =>
        ⟨passed ++ [⟨path, change after⟩], .finished result (change after)⟩
    | ⟨passed, .halted reason ⟨within, after⟩⟩ =>
        ⟨passed ++ [⟨within, change after⟩], .halted reason ⟨within, change after⟩⟩
    | ⟨passed, .exhausted⟩ => ⟨passed, .exhausted⟩

instance : Stepping Watching where
  pure result := fun _ machine => ⟨[], .finished result machine⟩
  bind := andThen
  read view := fun _ machine => ⟨[], .finished (view machine) machine⟩
  update change := fun path machine =>
    ⟨[⟨path, change machine⟩], .finished () (change machine)⟩
  halt reason := fun path machine => ⟨[], .halted reason ⟨path, machine⟩⟩
  exhaust := fun _ _ => ⟨[], .exhausted⟩
  andFinally := finallyChange

/-- What is done at a node, which is in progress meanwhile. -/
def during (node : Node) (action : Watching α) : Watching α :=
  fun path machine => action (⟨node, machine⟩ :: path) machine

/-! ## Watched evaluations -/

mutual

def evaluation (maxDepth : Nat) : Nat → Expression → Watching Value
  | 0, _ => exhaust
  | fuel + 1, expression =>
      during (.expression expression) (expressionStep (evaluation maxDepth fuel)
        (execution maxDepth fuel) maxDepth expression)

def execution (maxDepth : Nat) : Nat → Statement → Watching Flow
  | 0, _ => exhaust
  | fuel + 1, statement =>
      during (.statement statement) (statementStep (evaluation maxDepth fuel)
        (execution maxDepth fuel) (rounds maxDepth fuel) maxDepth statement)

def rounds (maxDepth : Nat) : Nat → Expression → Statement → Watching Flow
  | 0, _, _ => exhaust
  | fuel + 1, test, body =>
      loopStep (evaluation maxDepth fuel) (execution maxDepth fuel) (rounds maxDepth fuel)
        test body

end

/-- What a watched action does inside given nodes, without these. -/
def traced (watched : Watching α) (path : List Activity) : Tracing α :=
  fun machine => (watched path machine).trace

theorem traced_bind (first : Watching α) (second : α → Watching β) (path : List Activity) :
    (first >>= second).traced path =
      first.traced path >>= fun result => (second result).traced path := by
  funext machine
  change (andThen first second path machine).trace = Tracing.andThen _ _ machine
  unfold andThen Tracing.andThen traced
  generalize first path machine = watch
  obtain ⟨passed, ending⟩ := watch
  cases ending with
  | finished result between => simp [Watch.trace, Conclusion.outcome]
  | halted reason moment => rfl
  | exhausted => rfl

theorem traced_andFinally (watched : Watching α) (change : Machine → Machine)
    (path : List Activity) :
    (andFinally watched change).traced path = andFinally (watched.traced path) change := by
  funext machine
  change (finallyChange watched change path machine).trace = Tracing.finallyChange _ _ machine
  unfold finallyChange Tracing.finallyChange traced
  generalize watched path machine = watch
  obtain ⟨passed, ending⟩ := watch
  cases ending <;> simp [Watch.trace, Conclusion.outcome]

/-- Forgetting the nodes in progress respects every step. -/
def forgetting (path : List Activity) : Correspondence Watching Tracing where
  Related watched traced := watched.traced path = traced
  pure _ := rfl
  bind firstRelated secondRelated := by
    rw [traced_bind, firstRelated]
    congr
    funext result
    exact secondRelated result
  read _ := rfl
  update _ := rfl
  halt _ := rfl
  exhaust := rfl
  andFinally change related := by
    rw [traced_andFinally, related]

/-- A watched evaluation is the traced evaluation. -/
theorem traced_evaluation (maxDepth fuel : Nat) (path : List Activity) :
    (∀ expression, (evaluation maxDepth fuel expression).traced path =
      evaluate maxDepth fuel expression) ∧
    (∀ statement, (execution maxDepth fuel statement).traced path =
      execute maxDepth fuel statement) ∧
    (∀ test body, (rounds maxDepth fuel test body).traced path =
      executeRounds maxDepth fuel test body) := by
  induction fuel generalizing path with
  | zero => exact ⟨fun _ => rfl, fun _ => rfl, fun _ _ => rfl⟩
  | succ fuel ih =>
      refine ⟨fun expression => ?_, fun statement => ?_, fun test body => ?_⟩
      · -- the node is in progress from the machine on, on which it begins
        funext machine
        have within := ih (⟨.expression expression, machine⟩ :: path)
        exact congrFun ((forgetting _).expressionStep within.1 within.2.1 maxDepth expression)
          machine
      · funext machine
        have within := ih (⟨.statement statement, machine⟩ :: path)
        exact congrFun ((forgetting _).statementStep within.1 within.2.1 within.2.2 maxDepth
          statement) machine
      · exact (forgetting path).loopStep (ih path).1 (ih path).2.1 (ih path).2.2 test body

def action (watched : Watching α) (path : List Activity) : Action α :=
  (watched.traced path).action

theorem action_evaluation (maxDepth fuel : Nat) (expression : Expression)
    (path : List Activity) :
    (evaluation maxDepth fuel expression).action path = evaluate maxDepth fuel expression := by
  rw [action, (traced_evaluation maxDepth fuel path).1, Tracing.action_evaluate]

theorem action_execution (maxDepth fuel : Nat) (statement : Statement) (path : List Activity) :
    (execution maxDepth fuel statement).action path = execute maxDepth fuel statement := by
  rw [action, (traced_evaluation maxDepth fuel path).2.1, Tracing.action_execute]

theorem action_usedValue (evaluate : Expression → Watching Value) (expression : Expression)
    (path : List Activity) :
    (usedValue evaluate expression).action path =
      usedValue (fun inner => (evaluate inner).action path) expression := by
  have traces := (forgetting path).usedValue (fun inner => rfl : ∀ inner,
    (forgetting path).Related (evaluate inner) ((evaluate inner).traced path)) expression
  rw [action, traces, Tracing.action_usedValue]
  rfl

theorem action_bindArguments (evaluate : Expression → Watching Value)
    (arguments : List Expression) (parameters : List Declarator) (path : List Activity) :
    (bindArguments evaluate arguments parameters).action path =
      bindArguments (fun inner => (evaluate inner).action path) arguments parameters := by
  have traces := (forgetting path).bindArguments (fun inner => rfl : ∀ inner,
    (forgetting path).Related (evaluate inner) ((evaluate inner).traced path)) arguments parameters
  rw [action, traces, Tracing.action_bindArguments]
  rfl

/-! ## Properties of all moments passed -/

/-- Every moment passed has a property, and so has the one at which the action ends. -/
structure Keeps (property : Moment → Prop) (watched : Watching α) (path : List Activity)
    (machine : Machine) : Prop where
  passed : ∀ moment ∈ (watched path machine).passed, property moment
  finished : ∀ result after, (watched path machine).ending = .finished result after →
    property ⟨path, after⟩
  halted : ∀ reason moment, (watched path machine).ending = .halted reason moment →
    property moment

namespace Keeps

variable {property : Moment → Prop} {path : List Activity} {machine : Machine}

theorem bind {first : Watching α} {second : α → Watching β}
    (firstKeeps : first.Keeps property path machine)
    (secondKeeps : ∀ result between, first.action path machine = .finished result between →
      property ⟨path, between⟩ → (second result).Keeps property path between) :
    (first >>= second).Keeps property path machine := by
  change Keeps property (andThen first second) path machine
  obtain ⟨passed, finished, halted⟩ := firstKeeps
  change ∀ result between, (first path machine).ending.outcome = _ → _ at secondKeeps
  cases ended : first path machine with
  | mk earlier ending =>
      simp only [ended] at passed finished halted secondKeeps
      cases ending with
      | finished result between =>
          have rest := secondKeeps result between rfl (finished result between rfl)
          have whole : andThen first second path machine =
              ⟨earlier ++ (second result path between).passed,
                (second result path between).ending⟩ := by
            simp only [andThen, ended]
          constructor <;> rw [whole]
          · exact List.forall_mem_append.mpr ⟨passed, rest.passed⟩
          · exact rest.finished
          · exact rest.halted
      | halted reason moment =>
          have whole : andThen first second path machine = ⟨earlier, .halted reason moment⟩ := by
            simp only [andThen, ended]
          constructor <;> rw [whole]
          · exact passed
          · intro _ _ same
            cases same
          · intro _ _ same
            cases same
            exact halted reason moment rfl
      | exhausted =>
          have whole : andThen first second path machine = ⟨earlier, .exhausted⟩ := by
            simp only [andThen, ended]
          constructor <;> rw [whole]
          · exact passed
          · intro _ _ same
            cases same
          · intro _ _ same
            cases same

theorem andFinally {watched : Watching α} {change : Machine → Machine}
    (keeps : watched.Keeps property path machine)
    (changed : ∀ path after, property ⟨path, after⟩ → property ⟨path, change after⟩) :
    (andFinally watched change).Keeps property path machine := by
  change Keeps property (finallyChange watched change) path machine
  obtain ⟨passed, finished, halted⟩ := keeps
  cases ended : watched path machine with
  | mk earlier ending =>
      simp only [ended] at passed finished halted
      cases ending with
      | finished result after =>
          have holds := changed path after (finished result after rfl)
          have whole : finallyChange watched change path machine =
              ⟨earlier ++ [⟨path, change after⟩], .finished result (change after)⟩ := by
            simp only [finallyChange, ended]
          constructor <;> rw [whole]
          · exact List.forall_mem_append.mpr ⟨passed, List.forall_mem_singleton.mpr holds⟩
          · intro _ _ same
            cases same
            exact holds
          · intro _ _ same
            cases same
      | halted reason moment =>
          obtain ⟨within, after⟩ := moment
          have holds := changed within after (halted reason _ rfl)
          have whole : finallyChange watched change path machine =
              ⟨earlier ++ [⟨within, change after⟩], .halted reason ⟨within, change after⟩⟩ := by
            simp only [finallyChange, ended]
          constructor <;> rw [whole]
          · exact List.forall_mem_append.mpr ⟨passed, List.forall_mem_singleton.mpr holds⟩
          · intro _ _ same
            cases same
          · intro _ _ same
            cases same
            exact holds
      | exhausted =>
          have whole : finallyChange watched change path machine = ⟨earlier, .exhausted⟩ := by
            simp only [finallyChange, ended]
          constructor <;> rw [whole]
          · exact passed
          · intro _ _ same
            cases same
          · intro _ _ same
            cases same

end Keeps

end Watching

end Plainspoken
