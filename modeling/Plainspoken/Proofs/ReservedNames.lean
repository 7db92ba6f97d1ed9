import Plainspoken.Proofs.ExpressionRules
import Plainspoken.Proofs.Jumps
import Plainspoken.Proofs.Moments
import Plainspoken.Proofs.ReferenceSafety
import Plainspoken.Proofs.Stepwise
import Plainspoken.Proofs.Termination
import Plainspoken.Proofs.TreeParts

/-!
# Variables with a reserved name

The language binds two names itself.  A pipe binds the value that flows through it, and a
match or a pattern binds its subject.  A variable of such a name lives as long as what
binds it is in progress: its scope was opened by the innermost node that began before the
scope was there, and this node is a pipe, a match or the call of a pattern, in the frame
of the variable.

No statement declares a variable of a reserved name.  Parameters are not looked at in this
way, so that a parameter may have a reserved name, and then a call binds it.
-/

namespace Plainspoken

open Stepping Evaluation

/-! ## Where variables are bound -/

def Machine.Binds (machine : Machine) (site : Site) : Prop :=
  (machine.stack.binding? site).isSome = true

/-- Whether a scope is open, by the height of its frame and its own height in there. -/
def Machine.hasScope (machine : Machine) (frame scope : Nat) : Bool :=
  decide (scope < (Height.get? machine.shape frame).getD 0)

namespace Machine

variable {machine : Machine} {site : Site}

theorem hasScope_of_shape_eq {other : Machine} (same : other.shape = machine.shape)
    (frame scope : Nat) : other.hasScope frame scope = machine.hasScope frame scope := by
  unfold hasScope
  rw [same]

theorem height_eq_of_shape_eq {other : Machine} (same : other.shape = machine.shape) :
    other.stack.height = machine.stack.height := by
  have lengths := congrArg List.length same
  unfold shape at lengths
  rw [List.length_map, List.length_map] at lengths
  exact Nat.succ.inj lengths

theorem length_current_of_shape_eq {other : Machine} (same : other.shape = machine.shape) :
    other.current.scopes.length = machine.current.scopes.length :=
  (List.cons.inj same).1

/-- A variable is in a scope that is open. -/
theorem Binds.hasScope (binds : machine.Binds site) :
    machine.hasScope site.frame site.scope = true := by
  obtain ⟨binding, found⟩ := Option.isSome_iff_exists.mp binds
  obtain ⟨frame, frameFound, inFrame⟩ := Option.bind_eq_some_iff.mp found
  have below := Frame.lt_length_of_binding? inFrame
  rw [CallStack.frame?_eq] at frameFound
  unfold Machine.hasScope Machine.shape
  rw [Height.get?_map, frameFound]
  exact decide_eq_true below

theorem hasScope_current (machine : Machine) :
    machine.hasScope machine.stack.height machine.current.scopes.length = false := by
  have counted : Height.get? machine.shape machine.stack.height =
      some machine.current.scopes.length := by
    rw [shape, Height.get?_map, ← CallStack.frame?_eq, CallStack.frame?_height]
    rfl
  simp [hasScope, counted]

theorem hasScope_above (machine : Machine) (scope : Nat) :
    machine.hasScope (machine.stack.height + 1) scope = false := by
  have nothing : Height.get? machine.shape (machine.stack.height + 1) = none := by
    rw [shape, Height.get?_map, ← CallStack.frame?_eq,
      CallStack.frame?_eq_none _ (Nat.lt_succ_self _)]
    rfl
  simp [hasScope, nothing]

/-- A scope that is opened has its variables on top of the others. -/
theorem binding?_of_pushScope {scope : Scope} {binding : Variable}
    (found : (machine.pushScope scope).stack.binding? site = some binding) :
    machine.stack.binding? site = some binding ∨ (site.frame = machine.stack.height ∧
      site.scope = machine.current.scopes.length ∧ scope.binding? site.name = some binding) := by
  unfold Machine.pushScope Machine.modifyCurrent at found
  rw [CallStack.binding?_modifyCurrent] at found
  split at found
  · next isTop =>
    rw [CallStack.binding?_of_frame_eq_height isTop]
    simp only [Frame.binding?, Frame.scope?, Frame.pushScope, Height.get?_cons] at found
    split at found
    · next isNew => exact .inr ⟨isTop, isNew, found⟩
    · exact .inl found
  · exact .inl found

/-- A frame that is opened has its variables above the others. -/
theorem binding?_of_pushFrame {frame : Frame} {binding : Variable}
    (found : (machine.pushFrame frame).stack.binding? site = some binding) :
    machine.stack.binding? site = some binding ∨ (site.frame = machine.stack.height + 1 ∧
      frame.binding? site.scope site.name = some binding) := by
  unfold Machine.pushFrame CallStack.binding? at *
  rw [CallStack.frame?_push] at found
  split at found
  · next isNew => exact .inr ⟨isNew, found⟩
  · exact .inl found

end Machine

/-- What is found in a frame after a declaration was there before, or is what was declared. -/
theorem Frame.eq_or_binding?_of_declareVariable {frame after : Frame}
    {declared binding : Variable} {level : Nat} {name : String}
    (declares : frame.declareVariable declared = .ok after)
    (found : after.binding? level name = some binding) :
    frame.binding? level name = some binding ∨ binding = declared := by
  unfold Frame.declareVariable at declares
  split at declares
  · cases declares
  · next fresh =>
    cases declares
    rw [List.findSome?_eq_none_iff] at fresh
    obtain ⟨label, span, returns, scopes⟩ := frame
    cases scopes with
    | nil => exact .inl found
    | cons inner outer =>
        have innerFresh : inner.binding? declared.name = none := fresh inner (by simp)
        unfold Frame.binding? Frame.scope? at found ⊢
        simp only [Frame.insertVariable, Frame.modifyInnermost, List.modifyHead_cons,
          Height.get?_cons] at found ⊢
        split at found
        · next isInnermost =>
          rw [if_pos isInnermost, Option.bind_some]
          rw [Option.bind_some, Scope.binding?,
            Scope.insertVariable_bindings_of_binding?_eq_none innerFresh, List.find?_cons] at found
          split at found
          · cases found
            exact .inr rfl
          · exact .inl found
        · next isOuter =>
          rw [if_neg isOuter]
          exact .inl found

theorem Variable.Declared.unreserved {binding : Variable} (declared : binding.Declared) :
    isReservedName binding.name = false := by
  cases declared with
  | holding declarator value free => exact free
  | uninitialized declarator free => exact free

/-- What is found at a site after a change: a variable that was there, also with another
value of its type, or one that a statement has declared. -/
inductive Machine.Provides (machine : Machine) (site : Site) : Variable → Prop where
  | kept {binding : Variable} (found : machine.stack.binding? site = some binding) :
      Provides machine site binding
  | stored {binding : Variable} (found : machine.stack.binding? site = some binding)
      (value : Value) :
      Provides machine site (binding.store (value.cast binding.declarator.type))
  | declared {binding : Variable} (fresh : binding.Declared) : Provides machine site binding

/-- A quiet change provides no other variables. -/
theorem Machine.Quiet.provides {machine after : Machine} {site : Site} {binding : Variable}
    (quiet : machine.Quiet after) (found : after.stack.binding? site = some binding) :
    machine.Provides site binding := by
  -- where a scope or a frame is closed, what is found afterwards is not in it
  have lives : (after.stack.binding? site).isSome = true := by
    rw [found]
    rfl
  cases quiet with
  | noted depth lastValue emitted => exact .kept found
  | marked span => exact .kept ((binding?_modifyCurrent_eq rfl).symm.trans found)
  | flagsSet flags =>
      exact .kept ((@binding?_modifyInnermost _ _ (·.setFlags flags) fun _ => rfl).symm.trans found)
  | flagsUnset flags =>
      exact .kept
        ((@binding?_modifyInnermost _ _ (·.unsetFlags flags) fun _ => rfl).symm.trans found)
  | blockOpened =>
      rcases binding?_of_pushScope found with earlier | ⟨-, -, inBlock⟩
      · exact .kept earlier
      · cases inBlock
  | scopeClosed => exact .kept ((binding?_popScope_of_isSome lives).symm.trans found)
  | frameClosed => exact .kept ((binding?_popFrame_of_isSome lives).symm.trans found)
  | @stored owner assigned assigns value =>
      rw [binding?_store] at found
      split at found
      · next same =>
        rw [same, assigns.found] at found
        cases found
        exact .stored (same ▸ assigns.found) value
      · exact .kept found
  | variableDeclared fresh declares =>
      unfold Machine.modifyCurrent at found
      rw [CallStack.binding?_modifyCurrent] at found
      split at found
      · next isTop =>
        rcases Frame.eq_or_binding?_of_declareVariable declares found with earlier | rfl
        · exact .kept ((CallStack.binding?_of_frame_eq_height isTop).trans earlier)
        · exact .declared fresh
      · exact .kept found

/-- A quiet change binds no reserved name. -/
theorem Machine.Quiet.binds {machine after : Machine} {site : Site} (quiet : machine.Quiet after)
    (reserved : isReservedName site.name = true) (binds : after.Binds site) :
    machine.Binds site := by
  obtain ⟨binding, found⟩ := Option.isSome_iff_exists.mp binds
  have named := CallStack.name_eq_of_binding? found
  cases quiet.provides found with
  | kept earlier => exact Option.isSome_iff_exists.mpr ⟨_, earlier⟩
  | stored earlier value => exact Option.isSome_iff_exists.mpr ⟨_, earlier⟩
  | declared fresh =>
      rw [← named, fresh.unreserved] at reserved
      cases reserved

/-! ## Callables of a program -/

def Callable.parameters : Callable → List Declarator
  | .function signature _ => signature.parameters
  | .pattern signature _ => [signature.parameter]

private theorem Callable.body_mem_parts (callable : Callable) :
    callable.body ∈ callable.declaration.parts := by
  cases callable <;> exact List.mem_cons_self

/-- An entry is one of the standard library, or the program declares it. -/
def Entry.From (program : Statement) (entry : Entry) : Prop :=
  (∃ routine : Routine, entry = routine.entry) ∨
    (entry.routine = none ∧ program.IsPart entry.callable.declaration)

theorem Entry.From.body_isPart {program : Statement} {entry : Entry}
    (isFrom : entry.From program) (unbuilt : entry.routine = none) :
    program.IsPart entry.callable.body := by
  rcases isFrom with ⟨routine, rfl⟩ | ⟨-, declared⟩
  · cases routine <;> cases unbuilt
  · exact .part declared (Callable.body_mem_parts _)

/-- Every entry of a scope is one of the standard library, or the program declares it. -/
def Scope.Hosts (program : Statement) (scope : Scope) : Prop :=
  ∀ entry ∈ scope.entries, entry.From program

theorem Scope.Hosts.of_entries_eq_nil {program : Statement} {scope : Scope}
    (bare : scope.entries = []) : scope.Hosts program := by
  unfold Scope.Hosts
  rw [bare]
  exact List.forall_mem_nil _

/-- Whatever can be called is of the standard library, or the program declares it. -/
def Machine.Hosts (program : Statement) (machine : Machine) : Prop :=
  machine.Everywhere (Scope.Hosts program)

namespace Machine.Hosts

variable {program : Statement}

theorem of_stack_eq {machine : Machine} (fresh : machine.stack = Machine.initial.stack) :
    machine.Hosts program := by
  have library : Routine.library.Hosts program := by
    intro entry member
    obtain ⟨routine, -, rfl⟩ := List.mem_map.mp member
    exact .inl ⟨routine, rfl⟩
  intro frame member
  rw [fresh] at member
  rw [List.mem_singleton.mp member]
  exact List.forall_mem_cons.mpr
    ⟨library, List.forall_mem_singleton.mpr (.of_entries_eq_nil rfl)⟩

variable {machine : Machine} (hosts : machine.Hosts program)

include hosts

theorem pushScope {scope : Scope} (bare : scope.entries = []) :
    (machine.pushScope scope).Hosts program :=
  Everywhere.pushScope hosts (.of_entries_eq_nil bare)

theorem pushFrame {frame : Frame} (bare : ∀ scope ∈ frame.scopes, scope.entries = []) :
    (machine.pushFrame frame).Hosts program :=
  Everywhere.pushFrame hosts fun scope member => .of_entries_eq_nil (bare scope member)

theorem store (site : Site) (value : Value) : (machine.store site value).Hosts program := by
  refine Everywhere.store hosts fun frame scope frameFound scopeFound => ?_
  rw [CallStack.frame?_eq] at frameFound
  exact hosts frame (Height.mem_of_get?_eq_some frameFound) scope
    (Height.mem_of_get?_eq_some scopeFound)

theorem declareVariable {declared : Variable} {frame : Frame}
    (declares : machine.current.declareVariable declared = .ok frame) :
    (machine.modifyCurrent fun _ => frame).Hosts program := by
  refine Everywhere.modifyCurrent hosts ?_
  unfold Frame.declareVariable at declares
  split at declares
  · cases declares
  · cases declares
    exact hosts.current.modifyInnermost fun _ holds => holds

theorem quiet {after : Machine} (quiet : machine.Quiet after) : after.Hosts program := by
  cases quiet with
  | noted depth lastValue emitted => exact hosts
  | marked span => exact Everywhere.modifyCurrent hosts hosts.current
  | flagsSet flags => exact Everywhere.modifyInnermost hosts fun _ holds => holds
  | flagsUnset flags => exact Everywhere.modifyInnermost hosts fun _ holds => holds
  | blockOpened => exact hosts.pushScope rfl
  | scopeClosed => exact Everywhere.popScope hosts
  | frameClosed => exact Everywhere.popFrame hosts
  | stored assigns value => exact hosts.store _ _
  | variableDeclared fresh declares => exact hosts.declareVariable declares

theorem declareCallable {declared : Callable} (isPart : program.IsPart declared.declaration) :
    (machine.modifyCurrent fun _ => (machine.current.declareCallable declared).2).Hosts
      program := by
  refine Everywhere.modifyCurrent hosts (hosts.current.declareCallable fun scope holds => ?_)
  intro entry member
  rcases List.mem_cons.mp member with rfl | isEarlier
  · exact .inr ⟨rfl, isPart⟩
  · exact holds entry (List.mem_of_mem_filter isEarlier)

theorem resolve {name : String} {arity : Nat} {entry : Entry}
    (resolves : Evaluation.resolve machine name arity = .ok (some entry)) :
    entry.From program := by
  obtain ⟨frame, member, scope, scopeMember, declared⟩ := exists_mem_of_resolve resolves
  exact hosts frame member scope scopeMember entry declared

end Machine.Hosts

theorem Routine.parameters_unreserved (routine : Routine) :
    ∀ parameter ∈ routine.entry.callable.parameters, isReservedName parameter.name = false := by
  cases routine <;> decide

/-! ## Nodes that bind reserved names -/

/-- The innermost node in progress that began when a scope was not open yet.  The nodes
inside it that have finished have closed their scopes, and those in progress found the
scope open, so that it is this node itself that has opened the scope. -/
def Moment.opener? (moment : Moment) (site : Site) : Option Activity :=
  moment.path.find? fun activity => !activity.start.hasScope site.frame site.scope

namespace Moment

variable {path : List Activity} {activity : Activity} {machine after : Machine} {site : Site}

/-- A node that begins opens nothing that is there already. -/
theorem opener?_begun (node : Node) (binds : machine.Binds site) :
    opener? ⟨⟨node, machine⟩ :: path, machine⟩ site = opener? ⟨path, machine⟩ site :=
  List.find?_cons_of_neg (by simp [binds.hasScope])

/-- A node that ends has opened none of the scopes that are left, so that their openers are
further out. -/
theorem opener?_ended (same : after.shape = activity.start.shape) (binds : after.Binds site) :
    opener? ⟨activity :: path, after⟩ site = opener? ⟨path, after⟩ site := by
  have wasOpen : activity.start.hasScope site.frame site.scope = true := by
    rw [← Machine.hasScope_of_shape_eq same]
    exact binds.hasScope
  exact List.find?_cons_of_neg (by simp [wasOpen])

theorem opener?_of_hasScope_eq_false
    (isNew : activity.start.hasScope site.frame site.scope = false) :
    opener? ⟨activity :: path, after⟩ site = some activity :=
  List.find?_cons_of_pos (by simp [isNew])

/-- The scope that a node opens on top of those with which it began. -/
theorem hasScope_start_of_pushScope (same : machine.shape = activity.start.shape)
    (inFrame : site.frame = machine.stack.height)
    (isTop : site.scope = machine.current.scopes.length) :
    activity.start.hasScope site.frame site.scope = false := by
  rw [← Machine.hasScope_of_shape_eq same, inFrame, isTop, Machine.hasScope_current]

/-- The frame that a node opens above those with which it began. -/
theorem hasScope_start_of_pushFrame (same : machine.shape = activity.start.shape)
    (inFrame : site.frame = machine.stack.height + 1) :
    activity.start.hasScope site.frame site.scope = false := by
  rw [← Machine.hasScope_of_shape_eq same, inFrame, Machine.hasScope_above]

end Moment

/-- The nodes that bind a reserved name, and the sites at which they do. -/
inductive Activity.Binds (site : Site) : Activity → Prop where
  | pipe {span : Span} {first : Expression} {success failure : Option Expression}
      {start : Machine} (inFrame : site.frame = start.stack.height)
      (onTop : site.scope = start.current.scopes.length) (isName : site.name = pipeName) :
      Binds site ⟨.expression (.pipe span first success failure), start⟩
  | subject {span : Span} {subject : Expression} {body : Statement} {start : Machine}
      (inFrame : site.frame = start.stack.height)
      (onTop : site.scope = start.current.scopes.length) (isName : site.name = subjectName) :
      Binds site ⟨.statement (.matching span subject body), start⟩
  | patternSubject {span : Span} {name : String} {arguments : List Expression}
      {signature : PatternSignature} {body : Statement} {routine : Option Routine}
      {start : Machine} (resolves : resolve start name arguments.length =
        .ok (some ⟨.pattern signature body, routine⟩))
      (inFrame : site.frame = start.stack.height + 1) (isFirst : site.scope = 0)
      (isName : site.name = subjectName) :
      Binds site ⟨.expression (.call span name arguments), start⟩

/-- A call of something that the program declares with a parameter of the site's name. -/
inductive Activity.Passes (program : Statement) (site : Site) : Activity → Prop where
  | parameter {span : Span} {name : String} {arguments : List Expression} {callable : Callable}
      {parameter : Declarator} {start : Machine}
      (resolves : resolve start name arguments.length = .ok (some ⟨callable, none⟩))
      (declared : program.IsPart callable.declaration)
      (member : parameter ∈ callable.parameters) (isName : parameter.name = site.name)
      (inFrame : site.frame = start.stack.height + 1) (isFirst : site.scope = 0) :
      Passes program site ⟨.expression (.call span name arguments), start⟩

/-- At a moment every variable with a reserved name is bound by a node in progress. -/
structure Moment.Accounted (program : Statement) (moment : Moment) : Prop where
  hosts : moment.machine.Hosts program
  begun : ∀ activity ∈ moment.path, activity.start.Hosts program
  reserved : ∀ site, isReservedName site.name = true → moment.machine.Binds site →
    ∃ activity, moment.opener? site = some activity ∧
      (activity.Binds site ∨ activity.Passes program site)

namespace Moment.Accounted

variable {program : Statement} {path : List Activity} {activity : Activity}
  {machine after : Machine}

theorem enterNode (accounted : Accounted program ⟨path, machine⟩) (node : Node) :
    Accounted program ⟨⟨node, machine⟩ :: path, machine⟩ where
  hosts := accounted.hosts
  begun := List.forall_mem_cons.mpr ⟨accounted.hosts, accounted.begun⟩
  reserved site reserved binds := by
    obtain ⟨opener, found, bound⟩ := accounted.reserved site reserved binds
    exact ⟨opener, (opener?_begun node binds).trans found, bound⟩

theorem leaveNode (accounted : Accounted program ⟨activity :: path, after⟩)
    (same : after.shape = activity.start.shape) : Accounted program ⟨path, after⟩ where
  hosts := accounted.hosts
  begun := (List.forall_mem_cons.mp accounted.begun).2
  reserved site reserved binds := by
    obtain ⟨opener, found, bound⟩ := accounted.reserved site reserved binds
    exact ⟨opener, (opener?_ended same binds).symm.trans found, bound⟩

/-- Whatever binds no reserved name leaves the variables accounted for. -/
theorem of_binds (accounted : Accounted program ⟨path, machine⟩) (hosts : after.Hosts program)
    (earlier : ∀ site, isReservedName site.name = true → after.Binds site →
      machine.Binds site) : Accounted program ⟨path, after⟩ where
  hosts := hosts
  begun := accounted.begun
  reserved site reserved binds := accounted.reserved site reserved (earlier site reserved binds)

/-- The innermost node may open something that was not there when it began. -/
theorem opening (accounted : Accounted program ⟨activity :: path, machine⟩)
    (hosts : after.Hosts program)
    (opened : ∀ site, isReservedName site.name = true → after.Binds site → machine.Binds site ∨
      (activity.start.hasScope site.frame site.scope = false ∧
        (activity.Binds site ∨ activity.Passes program site))) :
    Accounted program ⟨activity :: path, after⟩ where
  hosts := hosts
  begun := accounted.begun
  reserved site reserved binds := by
    rcases opened site reserved binds with earlier | ⟨isNew, bound⟩
    · exact accounted.reserved site reserved earlier
    · exact ⟨activity, opener?_of_hasScope_eq_false isNew, bound⟩

/-- A scope with one variable, of a name that the node binds in its own frame. -/
theorem pushScope (accounted : Accounted program ⟨activity :: path, machine⟩)
    (same : machine.shape = activity.start.shape) {scope : Scope} {binding : Variable}
    (bare : scope.entries = []) (single : scope.bindings = [binding])
    (bound : ∀ site : Site, site.frame = activity.start.stack.height →
      site.scope = activity.start.current.scopes.length → site.name = binding.name →
      activity.Binds site) :
    Accounted program ⟨activity :: path, machine.pushScope scope⟩ := by
  refine accounted.opening (accounted.hosts.pushScope bare) fun site _ binds => ?_
  obtain ⟨other, found⟩ := Option.isSome_iff_exists.mp binds
  rcases Machine.binding?_of_pushScope found with earlier | ⟨inFrame, isTop, inScope⟩
  · exact .inl (Option.isSome_iff_exists.mpr ⟨other, earlier⟩)
  · have height := Machine.height_eq_of_shape_eq same
    have named : binding.name = site.name := by
      have inScope := Option.isSome_iff_exists.mpr ⟨other, inScope⟩
      simpa [Scope.binding?, single] using inScope
    have onTop := isTop.trans (Machine.length_current_of_shape_eq same)
    exact .inr ⟨hasScope_start_of_pushScope same inFrame isTop,
      .inl (bound site (inFrame.trans height) onTop named.symm)⟩

/-- A frame with one scope, in which the call binds reserved names. -/
theorem pushFrame (accounted : Accounted program ⟨activity :: path, machine⟩)
    (same : machine.shape = activity.start.shape) {frame : Frame}
    (bare : ∀ scope ∈ frame.scopes, scope.entries = []) (single : frame.scopes.length = 1)
    (bound : ∀ (site : Site) (binding : Variable), isReservedName site.name = true →
      site.frame = activity.start.stack.height + 1 → site.scope = 0 →
      binding ∈ frame.bindings → binding.name = site.name →
      activity.Binds site ∨ activity.Passes program site) :
    Accounted program ⟨activity :: path, machine.pushFrame frame⟩ := by
  refine accounted.opening (accounted.hosts.pushFrame bare) fun site reserved binds => ?_
  obtain ⟨binding, found⟩ := Option.isSome_iff_exists.mp binds
  rcases Machine.binding?_of_pushFrame found with earlier | ⟨inFrame, found⟩
  · exact .inl (Option.isSome_iff_exists.mpr ⟨binding, earlier⟩)
  · have height := Machine.height_eq_of_shape_eq same
    have isFirst : site.scope = 0 := by
      have below := Frame.lt_length_of_binding? found
      omega
    have named : binding.name = site.name := by
      obtain ⟨scope, -, inScope⟩ := Option.bind_eq_some_iff.mp found
      simpa using List.find?_some inScope
    exact .inr ⟨hasScope_start_of_pushFrame same inFrame, bound site binding reserved
      (by rw [inFrame, height]) isFirst (Frame.mem_bindings_of_binding? found) named⟩

/-- A reserved name among the parameters is one of a callable that the program declares. -/
theorem passes {span : Span} {name : String} {arguments : List Expression} {callable : Callable}
    {routine : Option Routine} {site : Site} {parameter : Declarator}
    (accounted : Accounted program ⟨activity :: path, machine⟩)
    (isCall : activity.node = .expression (.call span name arguments))
    (resolves : resolve activity.start name arguments.length = .ok (some ⟨callable, routine⟩))
    (reserved : isReservedName site.name = true)
    (inFrame : site.frame = activity.start.stack.height + 1) (isFirst : site.scope = 0)
    (member : parameter ∈ callable.parameters) (isName : parameter.name = site.name) :
    activity.Passes program site := by
  obtain ⟨node, start⟩ := activity
  cases isCall
  rcases (accounted.begun _ List.mem_cons_self).resolve resolves with
    ⟨routine, isRoutine⟩ | ⟨unbuilt, declared⟩
  · have free := routine.parameters_unreserved parameter (by rw [← isRoutine]; exact member)
    rw [isName, reserved] at free
    cases free
  · cases unbuilt
    exact .parameter resolves declared member isName inFrame isFirst

end Moment.Accounted

/-- The variables of a pattern are its parameter and its subject. -/
theorem eq_or_eq_of_mem_patternFrame {signature : PatternSignature} {span : Span} {value : Value}
    {argument : Option Site} {binding : Variable}
    (member : binding ∈ (patternFrame signature span value argument).bindings) :
    binding = bindParameter signature.parameter value argument ∨
      binding = .holding ⟨signature.parameter.span, false, signature.parameter.type, subjectName⟩
        value := by
  have unflagged : (patternFrame signature span value argument).bindings = _ :=
    Frame.bindings_modifyInnermost _ fun _ => rfl
  rw [unflagged] at member
  rcases Frame.eq_or_mem_of_mem_insertVariable _ member with isParameter | isSubject
  · exact .inl isParameter
  · rcases Frame.eq_or_mem_of_mem_insertVariable _ isSubject with rfl | inStart
    · exact .inr rfl
    · cases inStart

/-- Every step keeps the variables with reserved names accounted for. -/
theorem accounted_invariant (program : Statement) :
    Moment.Invariant program.IsPart (Moment.Accounted program) where
  parts isPart member := .part isPart member
  begun node accounted := accounted.enterNode node
  ended accounted same := accounted.leaveNode same
  quiet change accounted := accounted.of_binds (accounted.hosts.quiet change)
    fun _ reserved binds => change.binds reserved binds
  callableDeclared isPart accounted := by
    refine accounted.of_binds (accounted.hosts.declareCallable isPart) fun site _ binds => ?_
    unfold Machine.Binds at binds ⊢
    rwa [Machine.binding?_declareCallable] at binds
  bodies accounted resolves := (accounted.hosts.resolve resolves).body_isPart rfl
  pipeOpened {_ activity _ _ _ _ _} isPipe value same accounted := by
    obtain ⟨node, start⟩ := activity
    cases isPipe
    exact accounted.pushScope same rfl rfl fun site inFrame onTop isName =>
      .pipe inFrame onTop isName
  subjectOpened {_ activity _ _ _ _} isMatch value same accounted := by
    obtain ⟨node, start⟩ := activity
    cases isMatch
    exact accounted.pushScope same rfl rfl fun site inFrame onTop isName =>
      .subject inFrame onTop isName
  functionOpened {_ _ _ span _ _ signature _ _ parameters} isCall resolves declared _ _ same
      accounted := by
    have single : (functionFrame signature span parameters).scopes.length = 1 := by
      simpa using congrArg List.length (map_flags_functionFrame signature span parameters)
    refine accounted.pushFrame same (Frame.entries_functionFrame _ _ _) single ?_
    intro site binding reserved inFrame isFirst member named
    have isParameter := declared binding (mem_of_mem_bindings_functionFrame member)
    exact .inr (accounted.passes isCall resolves reserved inFrame isFirst isParameter named)
  patternOpened {_ activity _ _ _ _ _ _ _} isCall resolves value argument _ same accounted := by
    refine accounted.pushFrame same (Frame.entries_patternFrame _ _ _ _) rfl ?_
    intro site binding reserved inFrame isFirst member named
    rcases eq_or_eq_of_mem_patternFrame member with rfl | rfl
    · exact .inr (accounted.passes isCall resolves reserved inFrame isFirst
        (List.mem_singleton.mpr rfl) named)
    · obtain ⟨node, start⟩ := activity
      cases isCall
      exact .inl (.patternSubject resolves inFrame isFirst named.symm)

/-! ## Programs -/

/-- Below the limit a node goes on one level deeper. -/
theorem Action.bind_enter {α : Type} {maxDepth : Nat} (span : Span) {machine : Machine}
    (below : machine.depth + 1 < maxDepth) (next : Unit → Action α) :
    (enter maxDepth span >>= next) machine =
      next () { machine with depth := machine.depth + 1 } := by
  have enters : (enter maxDepth span : Action Unit) machine =
      .finished () { machine with depth := machine.depth + 1 } := by
    rw [Action.finished_enter]
    exact ⟨below, rfl⟩
  change Action.andThen _ _ machine = _
  rw [Action.andThen, enters]

/-- A declaration of a reserved name fails before its initial value is evaluated. -/
theorem execute_reserved_variable {maxDepth : Nat} (fuel : Nat) {declarator : Declarator}
    (initial : Option Expression) {machine : Machine}
    (reserved : isReservedName declarator.name = true) (below : machine.depth + 1 < maxDepth) :
    (execute maxDepth (fuel + 1) (.variable declarator initial) : Action Flow) machine =
      .halted (.failed (.variableReserved declarator.name))
        ({ machine with depth := machine.depth + 1 }.mark declarator.span) := by
  have fails : (declareVariable (evaluate maxDepth fuel) declarator initial : Action Unit) =
      fail (.variableReserved declarator.name) := by
    rw [declareVariable, if_pos reserved]
  rw [execute, statementStep, Statement.span, Action.bind_enter _ below, statementNode, fails]
  rfl

theorem Machine.not_binds_of_stack_eq {machine : Machine}
    (fresh : machine.stack = Machine.initial.stack) (site : Site) : ¬ machine.Binds site := by
  intro binds
  obtain ⟨binding, found⟩ := Option.isSome_iff_exists.mp binds
  obtain ⟨frame, frameFound, inFrame⟩ := Option.bind_eq_some_iff.mp found
  rw [fresh, CallStack.frame?_eq] at frameFound
  have isMain := List.mem_singleton.mp (Height.mem_of_get?_eq_some frameFound)
  have member := Frame.mem_bindings_of_binding? inFrame
  rw [isMain] at member
  cases member

/-- While a program runs, every variable with a reserved name is in a scope that was opened
by a node in progress: a pipe or a match in the same frame, or the call of a pattern in the
frame above it.  The one exception is a parameter of that name, of a function or pattern that
the program declares.  A statement that declares a variable of such a name fails. -/
theorem reserved_names_are_bound_by_nodes_in_progress {session : Session}
    (batch : session.Batch) (program : Statement) (fuel : Nat) :
    let watch := Watching.execution session.limits.maxDepth fuel program [] session.machine
    watch.trace = (execute session.limits.maxDepth fuel program : Tracing Flow) session.machine ∧
    (∀ moment ∈ watch.passed, ∀ site, isReservedName site.name = true →
      moment.machine.Binds site →
        ∃ activity, moment.opener? site = some activity ∧
          (activity.Binds site ∨ activity.Passes program site)) ∧
    ∀ moment ∈ watch.passed, ∀ more declarator initial,
      isReservedName declarator.name = true →
        moment.machine.depth + 1 < session.limits.maxDepth →
          ∃ after, (execute session.limits.maxDepth (more + 1) (.variable declarator initial) :
              Action Flow) moment.machine =
                .halted (.failed (.variableReserved declarator.name)) after ∧
            ∀ site, after.stack.binding? site = moment.machine.stack.binding? site := by
  intro watch
  have fresh := batch.stack_eq
  have accounted : Moment.Accounted program ⟨[], session.machine⟩ :=
    ⟨.of_stack_eq fresh, List.forall_mem_nil _,
      fun site _ binds => (Machine.not_binds_of_stack_eq fresh site binds).elim⟩
  have keeps := ((accounted_invariant program).evaluation session.limits.maxDepth fuel).2.1 program
    .whole [] session.machine accounted
  refine ⟨?_, fun moment member => (keeps.passed moment member).reserved, ?_⟩
  · exact congrFun ((Watching.traced_evaluation _ fuel []).2.1 program) session.machine
  · intro moment _ more declarator initial reserved below
    refine ⟨_, execute_reserved_variable more initial reserved below, fun site => ?_⟩
    rw [Machine.mark, Machine.modifyCurrent, CallStack.binding?_modifyCurrent]
    split
    · next isTop =>
      rw [CallStack.binding?_of_frame_eq_height isTop]
      rfl
    · rfl

/-- Inside a match and a pipe a function is called whose parameter is named like the value
of a pipe.  The three variables with reserved names are all accounted for.  A declaration of
one more fails. -/
theorem parameter_named_like_a_pipe_is_bound_by_its_call :
    let place : Span := .firstCharacter
    let function : Statement := .function
      ⟨place, "F", false, [⟨place, false, .fact, pipeName⟩], .fact⟩
      (.giveBack place (some (.identifier place pipeName)))
    let calling : Expression := .pipe place (.literal place (.fact true))
      (some (.call place "F" [.identifier place pipeName])) none
    let program : Statement := .compound place [function,
      .matching place (.literal place (.fact true)) (.compound place
        [.conditional place (.identifier place subjectName) (.expression calling) none])]
    let session := Session.start .standard
    ∃ moment ∈ (Watching.execution session.limits.maxDepth 20 program [] session.machine).passed,
      (∀ site ∈ [⟨1, 0, pipeName⟩, ⟨0, 5, pipeName⟩, ⟨0, 3, subjectName⟩],
        moment.machine.Binds site ∧ ∃ activity, moment.opener? site = some activity ∧
          (activity.Binds site ∨ activity.Passes program site)) ∧
      ∃ after, (execute session.limits.maxDepth 1
        (.variable ⟨place, true, .fact, subjectName⟩ none) : Action Flow) moment.machine =
          .halted (.failed (.variableReserved subjectName)) after := by
  intro place function calling program session
  let sites : List Site := [⟨1, 0, pipeName⟩, ⟨0, 5, pipeName⟩, ⟨0, 3, subjectName⟩]
  have evaluated : (Watching.execution session.limits.maxDepth 20 program []
      session.machine).passed.any (fun moment =>
        decide (moment.machine.depth + 1 < session.limits.maxDepth) &&
        sites.all fun site => (moment.machine.stack.binding? site).isSome) = true := by
    decide +kernel
  have areReserved : ∀ site ∈ sites, isReservedName site.name = true := by decide
  obtain ⟨moment, member, holds⟩ := List.any_eq_true.mp evaluated
  obtain ⟨shallow, binds⟩ := Bool.and_eq_true_iff.mp holds
  obtain ⟨-, bound, fails⟩ := reserved_names_are_bound_by_nodes_in_progress
    (.start .standard : session.Batch) program 20
  refine ⟨moment, member, fun site isSite => ?_, ?_⟩
  · have here := List.all_eq_true.mp binds site isSite
    exact ⟨here, bound moment member site (areReserved site isSite) here⟩
  · obtain ⟨after, halted, -⟩ := fails moment member 0 ⟨place, true, .fact, subjectName⟩ none
      rfl (of_decide_eq_true shallow)
    exact ⟨after, halted⟩

end Plainspoken
