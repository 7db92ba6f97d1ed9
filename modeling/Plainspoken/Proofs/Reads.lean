import Plainspoken.Proofs.ReservedNames
import Plainspoken.Proofs.TypedStore

/-!
# The types of values read

Reading a variable yields nothing or a value of the type declared for the variable that
owns the storage.  For a variable that refers to no other one this is the type it is
declared with itself, and only a parameter that may be assigned refers to another variable.

Such a parameter is bound to a cast of its argument, but what is read under its name is
the storage of the caller, and that may be of any type.  The storage of a pipe even holds
what its own declaration does not tell.  It is the one variable that is bound without a
cast, and its name does not single it out, since a parameter may be called the same.
-/

namespace Plainspoken

open Stepping Evaluation

/-! ## Variables that refer to others -/

/-- Only variables that may be assigned refer to others. -/
def Scope.RefersAssignably (scope : Scope) : Prop :=
  ∀ binding ∈ scope.bindings, binding.declarator.isMutable = false → binding.reference = none

namespace Scope.RefersAssignably

theorem insertVariable {scope : Scope} (refers : scope.RefersAssignably) {binding : Variable}
    (bindingRefers : binding.declarator.isMutable = false → binding.reference = none) :
    (scope.insertVariable binding).RefersAssignably := by
  intro other member
  rcases List.mem_cons.mp member with rfl | wasThere
  · exact bindingRefers
  · exact refers other (List.mem_of_mem_filter wasThere)

theorem store {scope : Scope} (refers : scope.RefersAssignably) (name : String) (value : Value) :
    (scope.modifyVariable name (·.store value)).RefersAssignably := by
  intro changed member
  obtain ⟨binding, wasThere, rfl⟩ := List.mem_map.mp member
  split
  · exact refers binding wasThere
  · exact refers binding wasThere

theorem of_opened {scope : Scope} (opened : scope.Opened) : scope.RefersAssignably := by
  cases opened with
  | block => exact List.forall_mem_nil _
  | pipe span value => exact List.forall_mem_singleton.mpr fun _ => rfl
  | subject span value => exact List.forall_mem_singleton.mpr fun _ => rfl

end Scope.RefersAssignably

theorem eq_none_of_bindParameter (parameter : Declarator) (value : Value) (site : Option Site)
    (constant : parameter.isMutable = false) :
    (bindParameter parameter value site).reference = none := by
  simp [bindParameter, constant]

theorem Frame.Opened.refersAssignably {frame : Frame} (opened : frame.Opened) :
    frame.Throughout Scope.RefersAssignably := by
  have start (name : String) (span : Span) (returns : ValueType) :
      (Frame.start name span returns).Throughout Scope.RefersAssignably :=
    List.forall_mem_singleton.mpr (List.forall_mem_nil _)
  cases opened with
  | function signature span bound =>
      refine Frame.Throughout.modifyInnermost ((start _ _ _).foldl_insertVariable ?_)
        fun _ refers => refers
      intro binding member scope refers
      cases bound binding member with
      | parameter parameter value site =>
          exact refers.insertVariable (eq_none_of_bindParameter parameter _ site)
  | pattern signature span value site =>
      refine Frame.Throughout.modifyInnermost (Frame.Throughout.modifyInnermost
        ((start _ _ _).modifyInnermost ?_) ?_) fun _ refers => refers
      · exact fun scope refers => refers.insertVariable fun _ => rfl
      · exact fun scope refers =>
          refers.insertVariable (eq_none_of_bindParameter signature.parameter _ site)

/-- Every change that evaluation makes leaves it to assignable variables to refer to others. -/
theorem refersAssignably_maintained : Machine.Maintained fun machine after =>
    machine.Everywhere Scope.RefersAssignably → after.Everywhere Scope.RefersAssignably where
  refl _ refers := refers
  trans firstSecond secondThird refers := secondThird (firstSecond refers)
  noted _ _ _ _ refers := refers
  marked _ _ refers := refers.modifyCurrent refers.current
  flagsSet _ _ refers := refers.modifyInnermost fun _ scope => scope
  flagsUnset _ _ refers := refers.modifyInnermost fun _ scope => scope
  scopeOpened _ _ opened refers := refers.pushScope (.of_opened opened)
  scopeClosed opened inside refers := (inside (refers.pushScope (.of_opened opened))).popScope
  frameOpened _ _ opened refers := refers.pushFrame opened.refersAssignably
  frameClosed opened inside refers := (inside (refers.pushFrame opened.refersAssignably)).popFrame
  stored machine site binding found _ value refers := by
    apply refers.store
    intro frame scope frameFound scopeFound
    rw [CallStack.frame?_eq] at frameFound
    exact Scope.RefersAssignably.store (refers frame (Height.mem_of_get?_eq_some frameFound)
      scope (Height.mem_of_get?_eq_some scopeFound)) site.name _
  variableDeclared machine binding frame fresh declares refers := by
    have freshRefers : binding.reference = none := by cases fresh <;> rfl
    unfold Frame.declareVariable at declares
    split at declares
    · cases declares
    · cases declares
      exact refers.modifyCurrent (refers.current.modifyInnermost fun _ scope =>
        scope.insertVariable fun _ => freshRefers)
  callableDeclared machine declared _ refers :=
    refers.modifyCurrent (refers.current.declareCallable fun _ scope => scope)

theorem refersAssignably_invariant :
    Machine.Invariant (Machine.Everywhere Scope.RefersAssignably) :=
  refersAssignably_maintained.invariant
    (.initial fun scope unbound binding member => by
      rw [unbound] at member
      cases member)
    fun _ _ inherits => inherits

private theorem Machine.valueOf_eq_ok_of_toOption {machine : Machine} {name : String}
    {value : Value}
    (reads : (machine.valueOf name).toOption = some value) : machine.valueOf name = .ok value := by
  cases computed : machine.valueOf name with
  | ok held =>
      rw [computed] at reads
      cases reads
      rfl
  | error cause =>
      rw [computed] at reads
      cases reads

/-! ## Variables of pipes -/

/-- A variable of the type may hold the value. -/
def Value.Fits (value : Value) (type : ValueType) : Prop :=
  value = .nothing ∨ value.type = type

theorem Variable.Declared.fits {binding : Variable} (declared : binding.Declared) :
    binding.value.Fits binding.declarator.type := by
  cases declared with
  | holding declarator value _ => exact value.cast_eq_nothing_or_type_eq declarator.type
  | uninitialized declarator _ => exact .inl rfl

/-- A parameter holds a cast of its argument, whatever its name is. -/
theorem Variable.Bound.fits {binding : Variable} (bound : binding.Bound) :
    binding.value.Fits binding.declarator.type := by
  cases bound with
  | parameter parameter value site => exact value.cast_eq_nothing_or_type_eq parameter.type

def Activity.isCall (activity : Activity) : Bool :=
  match activity.node with
  | .expression (.call _ _ _) => true
  | _ => false

namespace Moment

/-- The variable at a site is that of a pipe in progress, which has opened its scope. -/
def OfPipe (moment : Moment) (site : Site) : Prop :=
  ∃ span first success failure start,
    moment.opener? site = some ⟨.expression (.pipe span first success failure), start⟩ ∧
      site = ⟨start.stack.height, start.current.scopes.length, pipeName⟩

theorem OfPipe.of_opener?_eq {moment other : Moment} {site : Site}
    (same : other.opener? site = moment.opener? site) (ofPipe : moment.OfPipe site) :
    other.OfPipe site := by
  unfold OfPipe
  rw [same]
  exact ofPipe

/-- The variable at a site is one that a call in progress has bound in a frame of its own. -/
def OfCall (moment : Moment) (site : Site) : Prop :=
  (moment.opener? site).any Activity.isCall = true

private theorem OfCall.not_ofPipe {moment : Moment} {site : Site} (ofCall : moment.OfCall site) :
    ¬ moment.OfPipe site := by
  rintro ⟨_, _, _, _, _, isPipe, -⟩
  rw [OfCall, isPipe] at ofCall
  cases ofCall

/-- At a moment every variable fits its declaration, unless it is that of a pipe. -/
def Fitting (moment : Moment) : Prop :=
  ∀ site binding, moment.machine.stack.binding? site = some binding →
    moment.OfPipe site ∨ binding.value.Fits binding.declarator.type

namespace Fitting

variable {path : List Activity} {activity : Activity} {machine after : Machine}

theorem enterNode (fitting : Fitting ⟨path, machine⟩) (node : Node) :
    Fitting ⟨⟨node, machine⟩ :: path, machine⟩ := by
  intro site binding found
  have binds : machine.Binds site := Option.isSome_iff_exists.mpr ⟨binding, found⟩
  exact (fitting site binding found).imp_left (.of_opener?_eq (opener?_begun node binds))

theorem leaveNode (fitting : Fitting ⟨activity :: path, after⟩)
    (same : after.shape = activity.start.shape) : Fitting ⟨path, after⟩ := by
  intro site binding found
  have binds : after.Binds site := Option.isSome_iff_exists.mpr ⟨binding, found⟩
  exact (fitting site binding found).imp_left (.of_opener?_eq (opener?_ended same binds).symm)

/-- What is stored is cast to the type of the variable that it is stored in. -/
theorem of_provides (fitting : Fitting ⟨path, machine⟩)
    (provides : ∀ site binding, after.stack.binding? site = some binding →
      machine.Provides site binding) : Fitting ⟨path, after⟩ := by
  intro site binding found
  cases provides site binding found with
  | kept earlier => exact fitting site binding earlier
  | stored earlier value => exact .inr (value.cast_eq_nothing_or_type_eq _)
  | declared fresh => exact .inr fresh.fits

theorem pushFrame (fitting : Fitting ⟨path, machine⟩) {frame : Frame}
    (fits : ∀ binding ∈ frame.bindings, binding.value.Fits binding.declarator.type) :
    Fitting ⟨path, machine.pushFrame frame⟩ := by
  intro site binding found
  rcases Machine.binding?_of_pushFrame found with earlier | ⟨-, inFrame⟩
  · exact fitting site binding earlier
  · exact .inr (fits binding (Frame.mem_bindings_of_binding? inFrame))

end Fitting

/-- Every step keeps the variables fitting: only a pipe binds a value without a cast. -/
theorem fitting_invariant : Moment.Invariant (fun _ => True) Fitting where
  parts _ _ := trivial
  begun node fitting := fitting.enterNode node
  ended fitting same := fitting.leaveNode same
  quiet change fitting := fitting.of_provides fun _ _ found => change.provides found
  callableDeclared _ fitting := fitting.of_provides fun _ _ found =>
    .kept (by rwa [Machine.binding?_declareCallable] at found)
  bodies _ _ := trivial
  pipeOpened {_ activity machine span first success failure} isPipe value same fitting := by
    obtain ⟨node, start⟩ := activity
    cases isPipe
    intro site binding found
    rcases Machine.binding?_of_pushScope found with earlier | ⟨inFrame, isTop, inScope⟩
    · exact fitting site binding earlier
    · have member : binding ∈ [pipeVariable first.span value] := List.mem_of_find?_eq_some inScope
      have named := Scope.name_eq_of_binding? inScope
      rw [List.mem_singleton.mp member] at named
      refine .inl ⟨span, first, success, failure, start, opener?_of_hasScope_eq_false
        (hasScope_start_of_pushScope same inFrame isTop), ?_⟩
      rw [Site.mk.injEq]
      exact ⟨inFrame.trans (Machine.height_eq_of_shape_eq same),
        isTop.trans (Machine.length_current_of_shape_eq same), named.symm⟩
  subjectOpened {_ _ _ span _ _} _ value _ fitting := by
    intro site binding found
    rcases Machine.binding?_of_pushScope found with earlier | ⟨-, -, inScope⟩
    · exact fitting site binding earlier
    · have member : binding ∈ (subjectScope span value).bindings :=
        List.mem_of_find?_eq_some inScope
      rw [List.mem_singleton.mp member]
      exact .inr (.inr rfl)
  functionOpened _ _ _ bound _ _ fitting := fitting.pushFrame fun binding member =>
    (bound binding (mem_of_mem_bindings_functionFrame member)).fits
  patternOpened {_ _ _ _ _ _ signature _ _} _ _ value site _ _ fitting := by
    refine fitting.pushFrame fun binding member => ?_
    rcases eq_or_eq_of_mem_patternFrame member with rfl | rfl
    · exact (Variable.Bound.parameter signature.parameter value site).fits
    · exact value.cast_eq_nothing_or_type_eq signature.parameter.type

end Moment

/-! ## Main statement -/

/-- Whenever a run of a program evaluates the name of a variable, it yields nothing or a value
of the type declared for the variable that owns the storage, unless that is the variable of a
pipe in progress.  Hence it is of the type that is declared where the name is found, unless
the variable of a pipe is found there, or a parameter that may be assigned and that refers to
a variable of another type or to that of a pipe.  In particular what a call has bound is read
at the type of the parameter, also where this is named like the value of a pipe, unless it is
passed by reference. -/
theorem reads_respect_types_of_owners {session : Session} (batch : session.Batch)
    (program : Statement) (fuel : Nat) :
    let watch := Watching.execution session.limits.maxDepth fuel program [] session.machine
    watch.trace = (execute session.limits.maxDepth fuel program : Tracing Flow) session.machine ∧
    ∀ moment ∈ watch.passed, ∀ (maxDepth : Nat) (span : Span) (name : String) (value : Value)
      (after : Machine),
      Evaluates maxDepth (.identifier span name) moment.machine value after →
      ∃ site binding stored, moment.machine.stack.find? name = some site ∧
        moment.machine.stack.binding? site = some binding ∧
        moment.machine.stack.binding? (moment.machine.stack.owner site) = some stored ∧
        (¬ moment.OfPipe (moment.machine.stack.owner site) →
          value = .nothing ∨ value.type = stored.declarator.type) ∧
        (¬ moment.OfPipe site →
          binding.declarator.isMutable = false ∨ binding.reference = none ∨
            (¬ moment.OfPipe (moment.machine.stack.owner site) ∧
              stored.declarator.type = binding.declarator.type) →
          value = .nothing ∨ value.type = binding.declarator.type) ∧
        (moment.OfCall site → binding.reference = none →
          value = .nothing ∨ value.type = binding.declarator.type) := by
  intro watch
  have isTrace : watch.trace =
      (execute session.limits.maxDepth fuel program : Tracing Flow) session.machine :=
    congrFun ((Watching.traced_evaluation _ fuel []).2.1 program) session.machine
  refine ⟨isTrace, fun moment member maxDepth span name value after evaluates => ?_⟩
  have isPassed : moment.machine ∈
      ((execute session.limits.maxDepth fuel program : Tracing Flow) session.machine).passed := by
    rw [← isTrace]
    exact List.mem_map_of_mem member
  have passed : moment.machine.Passed := .executing batch.reached isPassed
  have atFirst : Moment.Fitting ⟨[], session.machine⟩ := by
    intro site binding found
    exact absurd (Option.isSome_iff_exists.mpr ⟨binding, found⟩)
      (Machine.not_binds_of_stack_eq batch.stack_eq site)
  have fitting : moment.Fitting := ((Moment.fitting_invariant.evaluation _ fuel).2.1 program
    trivial [] session.machine atFirst).passed moment member
  obtain ⟨-, reads, -⟩ := evaluates_identifier_iff.mp evaluates
  obtain ⟨site, stored, found, storedFound, -, rfl⟩ := Machine.valueOf_eq_ok_iff.mp reads
  obtain ⟨binding, bindingFound⟩ :=
    Option.isSome_iff_exists.mp (CallStack.isSome_binding?_of_find? found)
  have ofOwner (alone : ¬ moment.OfPipe (moment.machine.stack.owner site)) :
      stored.value.Fits stored.declarator.type :=
    (fitting _ stored storedFound).resolve_left alone
  have ofItself (alone : ¬ moment.OfPipe site) (noReference : binding.reference = none) :
      stored.value.Fits binding.declarator.type := by
    rw [CallStack.owner_eq_self bindingFound noReference] at storedFound ofOwner
    rw [Option.some.inj (bindingFound.symm.trans storedFound)]
    exact ofOwner alone
  refine ⟨site, binding, stored, found, bindingFound, storedFound, ofOwner,
    fun alone own => ?_, fun ofCall => ofItself ofCall.not_ofPipe⟩
  rcases own with constant | noReference | ⟨ownerAlone, sameType⟩
  · obtain ⟨_, refers, bindingMember⟩ :=
      (refersAssignably_invariant.of_passed passed).of_binding? bindingFound
    exact ofItself alone (refers binding bindingMember constant)
  · exact ofItself alone noReference
  · rw [← sameType]
    exact ofOwner ownerAlone

/-- A function lends its parameter, which is named like the value of a pipe, to another
function.  No pipe is in progress, and what is read there is a fact, as both are declared. -/
theorem lent_parameter_named_like_a_pipe_is_read :
    let place : Span := .firstCharacter
    let reader : Statement := .function
      ⟨place, "G", false, [⟨place, true, .fact, "p"⟩], .nothing⟩
      (.expression (.call place "Print" [.identifier place "p"]))
    let lender : Statement := .function
      ⟨place, "F", false, [⟨place, true, .fact, pipeName⟩], .nothing⟩
      (.expression (.call place "G" [.identifier place pipeName]))
    let program : Statement := .compound place
      [reader, lender, .expression (.call place "F" [.literal place (.fact true)])]
    let session := Session.start .standard
    let site : Site := ⟨2, 0, "p"⟩
    let owner : Site := ⟨1, 0, pipeName⟩
    ∃ moment ∈ (Watching.execution session.limits.maxDepth 20 program [] session.machine).passed,
      ∃ after binding stored,
        Evaluates session.limits.maxDepth (.identifier place "p") moment.machine (.fact true)
          after ∧
        moment.machine.stack.find? "p" = some site ∧
        moment.machine.stack.binding? site = some binding ∧
        moment.machine.stack.owner site = owner ∧
        moment.machine.stack.binding? owner = some stored ∧
        moment.OfCall owner ∧ moment.OfCall site ∧
        stored.declarator.type = binding.declarator.type ∧
        (Value.fact true = .nothing ∨ (Value.fact true).type = stored.declarator.type) ∧
        (Value.fact true = .nothing ∨ (Value.fact true).type = binding.declarator.type) := by
  intro place reader lender program session site owner
  let lends (moment : Moment) : Bool :=
    decide (moment.machine.depth + 1 < session.limits.maxDepth) &&
    decide ((moment.machine.valueOf "p").toOption = some (.fact true)) &&
    decide (moment.machine.stack.find? "p" = some site) &&
    decide (moment.machine.stack.owner site = owner) &&
    (moment.opener? owner).any Activity.isCall && (moment.opener? site).any Activity.isCall &&
    decide ((moment.machine.stack.binding? owner).map (·.declarator.type) =
      (moment.machine.stack.binding? site).map (·.declarator.type))
  have evaluated : ((Watching.execution session.limits.maxDepth 20 program []
      session.machine).passed.any lends) = true := by
    decide +kernel
  obtain ⟨moment, member, holds⟩ := List.any_eq_true.mp evaluated
  simp only [lends, Bool.and_eq_true, decide_eq_true_eq] at holds
  obtain ⟨⟨⟨⟨⟨⟨shallow, isRead⟩, finds⟩, owns⟩, ownerOfCall⟩, siteOfCall⟩, sameTypes⟩ := holds
  have evaluates : Evaluates session.limits.maxDepth (.identifier place "p") moment.machine
      (.fact true) ((moment.machine.entered place).concluded (.fact true)) :=
    evaluates_identifier_iff.mpr ⟨shallow, Machine.valueOf_eq_ok_of_toOption isRead, rfl⟩
  obtain ⟨-, reading⟩ := reads_respect_types_of_owners (.start .standard : session.Batch) program 20
  obtain ⟨_, binding, stored, found, bindingFound, storedFound, ofOwner, ofSite, -⟩ :=
    reading moment member _ _ _ _ _ evaluates
  cases found.symm.trans finds
  rw [owns] at storedFound ofOwner ofSite
  rw [storedFound, bindingFound] at sameTypes
  have sameType := Option.some.inj sameTypes
  have ownerAlone := Moment.OfCall.not_ofPipe ownerOfCall
  have siteAlone := Moment.OfCall.not_ofPipe siteOfCall
  exact ⟨moment, member, _, binding, stored, evaluates, finds, bindingFound, owns, storedFound,
    ownerOfCall, siteOfCall, sameType, ofOwner ownerAlone,
    ofSite siteAlone (.inr (.inr ⟨ownerAlone, sameType⟩))⟩

/-- A parameter for numbers that may be assigned is lent a variable that holds the fact
`TRUE`, and in a second program what flows into a pipe.  Reading the parameter yields the
fact in both, although the variable of the pipe is declared as a number as well. -/
theorem references_are_read_at_other_types :
    let place : Span := .firstCharacter
    let function : Statement := .function
      ⟨place, "F", false, [⟨place, true, .number, "p"⟩], .nothing⟩
      (.expression (.call place "Print" [.identifier place "p"]))
    let lent : Statement := .compound place
      [.variable ⟨place, true, .fact, "x"⟩ (some (.literal place (.fact true))), function,
        .expression (.call place "F" [.identifier place "x"])]
    let piped : Statement := .compound place
      [function, .expression (.pipe place (.literal place (.fact true))
        (some (.call place "F" [.identifier place pipeName])) none)]
    ∀ program owner type,
      (program, owner, type) ∈ [(lent, "x", ValueType.fact), (piped, pipeName, .number)] →
      ∃ machine ∈ ((execute Limits.standard.maxDepth 14 program : Tracing Flow) .initial).passed,
        ∃ after site binding stored, machine.Passed ∧
        Evaluates Limits.standard.maxDepth (.identifier place "p") machine (.fact true) after ∧
        machine.stack.find? "p" = some site ∧ machine.stack.binding? site = some binding ∧
        binding.declarator.type = .number ∧
        machine.stack.binding? (machine.stack.owner site) = some stored ∧
        stored.name = owner ∧ stored.declarator.type = type := by
  intro place function lent piped program owner type listed
  let found (machine : Machine) : Bool :=
    decide (machine.depth + 1 < Limits.standard.maxDepth) &&
    decide ((machine.valueOf "p").toOption = some (.fact true)) &&
    decide (machine.stack.find? "p" = some ⟨1, 0, "p"⟩) &&
    decide ((machine.stack.binding? ⟨1, 0, "p"⟩).map (·.declarator.type) = some .number) &&
    decide ((machine.stack.binding? (machine.stack.owner ⟨1, 0, "p"⟩)).map (fun stored =>
      (stored.name, stored.declarator.type)) = some (owner, type))
  have evaluated : (((execute Limits.standard.maxDepth 14 program : Tracing Flow)
      .initial).passed.any found) = true := by
    simp only [List.mem_cons, Prod.mk.injEq, List.not_mem_nil, or_false] at listed
    rcases listed with ⟨rfl, rfl, rfl⟩ | ⟨rfl, rfl, rfl⟩
    · decide +kernel
    · decide +kernel
  obtain ⟨machine, member, holds⟩ := List.any_eq_true.mp evaluated
  simp only [found, Bool.and_eq_true, decide_eq_true_eq] at holds
  obtain ⟨⟨⟨⟨shallow, reads⟩, finds⟩, declared⟩, owned⟩ := holds
  obtain ⟨binding, bindingFound, isNumber⟩ := Option.map_eq_some_iff.mp declared
  obtain ⟨stored, storedFound, same⟩ := Option.map_eq_some_iff.mp owned
  obtain ⟨sameName, sameType⟩ := Prod.mk.inj same
  have passed : machine.Passed := .executing (.start .standard) member
  have isRead := Machine.valueOf_eq_ok_of_toOption reads
  have evaluates : Evaluates Limits.standard.maxDepth (.identifier place "p") machine
      (.fact true) ((machine.entered place).concluded (.fact true)) :=
    evaluates_identifier_iff.mpr ⟨shallow, isRead, rfl⟩
  exact ⟨machine, member, _, _, binding, stored, passed, evaluates, finds, bindingFound,
    isNumber, storedFound, sameName, sameType⟩

end Plainspoken
