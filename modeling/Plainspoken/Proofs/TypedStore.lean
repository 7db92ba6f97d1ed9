import Mathlib.Data.List.Nodup
import Plainspoken.Proofs.Scopes

/-!
# Variables hold values of their declared type

Whatever happens, a variable holds nothing or a value of the type it was declared
with, and holds nothing as long as it is not initialized.  Only the variable of a
pipe is exempt: it is declared as a number and holds whatever flows into the pipe.

Values enter a variable in several ways, each with a cast of its own: declarations
and parameters cast to the declared type, a match declares its subject with the type
that the subject has, and an assignment casts to the type of the variable that owns
the storage.  That variable is found by its name, of which a scope has one at most.
-/

namespace Plainspoken

open Stepping Evaluation

/-- A variable holds nothing or a value of its type, unless it is that of a pipe,
and holds nothing before it is initialized. -/
structure Variable.Typed (binding : Variable) : Prop where
  value : binding.name ≠ pipeName →
    binding.value = .nothing ∨ binding.value.type = binding.declarator.type
  uninitialized : binding.initialized = false → binding.value = .nothing

namespace Variable.Typed

/-- A value that was cast to the declared type may be held. -/
theorem of_cast {binding : Variable} {value : Value}
    (holds : binding.value = value.cast binding.declarator.type)
    (initialized : binding.initialized = true) : binding.Typed where
  value _ := by
    rw [holds]
    exact value.cast_eq_nothing_or_type_eq binding.declarator.type
  uninitialized unset := by
    rw [initialized] at unset
    cases unset

theorem pipeVariable (span : Span) (value : Value) :
    (Evaluation.pipeVariable span value).Typed where
  value named := absurd rfl named
  uninitialized unset := by cases unset

/-- The subject of a match is declared with the type that it has. -/
theorem subject (span : Span) (value : Value) :
    (Variable.holding ⟨span, false, value.type, subjectName⟩ value).Typed where
  value _ := .inr rfl
  uninitialized unset := by cases unset

theorem of_declared {binding : Variable} (declared : binding.Declared) : binding.Typed := by
  cases declared with
  | holding declarator value _ => exact of_cast rfl rfl
  | uninitialized declarator _ => exact ⟨fun _ => .inl rfl, fun _ => rfl⟩

theorem of_bound {binding : Variable} (bound : binding.Bound) : binding.Typed := by
  cases bound with
  | parameter parameter value site => exact of_cast rfl rfl

end Variable.Typed

/-- The variables of a scope have different names, and each is typed. -/
structure Scope.Typed (scope : Scope) : Prop where
  distinct : (scope.bindings.map Variable.name).Nodup
  typed : ∀ binding ∈ scope.bindings, binding.Typed

namespace Scope.Typed

theorem empty : Scope.empty.Typed :=
  ⟨List.nodup_nil, List.forall_mem_nil _⟩

theorem insertVariable {scope : Scope} (typed : scope.Typed) {binding : Variable}
    (bindingTyped : binding.Typed) : (scope.insertVariable binding).Typed := by
  constructor
  · have others : ((scope.bindings.filter (·.name != binding.name)).map Variable.name).Nodup :=
      typed.distinct.sublist (List.filter_sublist.map _)
    refine List.nodup_cons.mpr ⟨?_, others⟩
    intro member
    obtain ⟨other, otherMember, sameName⟩ := List.mem_map.mp member
    simp [sameName] at otherMember
  · intro other member
    rcases List.mem_cons.mp member with rfl | wasThere
    · exact bindingTyped
    · exact typed.typed other (List.mem_of_mem_filter wasThere)

/-- A value that was cast to the type of the variable of a name may be stored there:
no other variable of the scope has that name. -/
theorem store {scope : Scope} (typed : scope.Typed) {name : String} {binding : Variable}
    (found : scope.binding? name = some binding) (value : Value) :
    (scope.modifyVariable name (·.store (value.cast binding.declarator.type))).Typed := by
  have bindingMember : binding ∈ scope.bindings := List.mem_of_find?_eq_some found
  have bindingName : binding.name = name := by simpa using List.find?_some found
  constructor
  · have sameNames : (scope.modifyVariable name
        (·.store (value.cast binding.declarator.type))).bindings.map Variable.name =
        scope.bindings.map Variable.name := by
      simp only [Scope.modifyVariable, List.map_map]
      apply List.map_congr_left
      intro other _
      simp only [Function.comp_apply]
      split
      · rfl
      · rfl
    rw [sameNames]
    exact typed.distinct
  · intro changed member
    obtain ⟨other, otherMember, rfl⟩ := List.mem_map.mp member
    split
    · next named =>
      have sameName : other.name = binding.name := by
        rw [bindingName]
        simpa using named
      have same : other = binding :=
        List.inj_on_of_nodup_map typed.distinct otherMember bindingMember sameName
      rw [same]
      exact .of_cast rfl rfl
    · exact typed.typed other otherMember

theorem of_opened {scope : Scope} (opened : scope.Opened) : scope.Typed := by
  cases opened with
  | block => exact empty
  | pipe span value => exact empty.insertVariable (.pipeVariable span value)
  | subject span value =>
      have flagged : (Scope.withFlags .onlyMatching).Typed := ⟨empty.distinct, empty.typed⟩
      exact flagged.insertVariable (.subject span value)

end Scope.Typed

theorem Frame.Opened.typed {frame : Frame} (opened : frame.Opened) :
    frame.Throughout Scope.Typed := by
  have start (name : String) (span : Span) (returns : ValueType) :
      (Frame.start name span returns).Throughout Scope.Typed :=
    List.forall_mem_singleton.mpr .empty
  have flagged {frame : Frame} (throughout : frame.Throughout Scope.Typed) (flags : Flags) :
      (frame.setFlags flags).Throughout Scope.Typed :=
    throughout.modifyInnermost fun _ typed => ⟨typed.distinct, typed.typed⟩
  cases opened with
  | function signature span bound =>
      apply flagged
      apply (start _ _ _).foldl_insertVariable
      intro binding member scope typed
      exact typed.insertVariable (.of_bound (bound binding member))
  | pattern signature span value site =>
      apply flagged
      refine Frame.Throughout.modifyInnermost ((start _ _ _).modifyInnermost ?_) ?_
      · intro scope typed
        exact typed.insertVariable (.of_cast rfl rfl)
      · intro scope typed
        exact typed.insertVariable (.of_bound (.parameter _ value site))

/-- Every change that evaluation makes keeps variables typed. -/
theorem typed_maintained : Machine.Maintained fun machine after =>
    machine.Everywhere Scope.Typed → after.Everywhere Scope.Typed where
  refl _ typed := typed
  trans firstSecond secondThird typed := secondThird (firstSecond typed)
  noted _ _ _ _ typed := typed
  marked _ _ typed := typed.modifyCurrent typed.current
  flagsSet _ _ typed := typed.modifyInnermost fun _ scope => ⟨scope.distinct, scope.typed⟩
  flagsUnset _ _ typed := typed.modifyInnermost fun _ scope => ⟨scope.distinct, scope.typed⟩
  scopeOpened _ _ opened typed := typed.pushScope (.of_opened opened)
  scopeClosed opened inside typed := (inside (typed.pushScope (.of_opened opened))).popScope
  frameOpened _ _ opened typed := typed.pushFrame opened.typed
  frameClosed opened inside typed := (inside (typed.pushFrame opened.typed)).popFrame
  stored machine site binding found _ value typed := by
    apply typed.store
    intro frame scope frameFound scopeFound
    have inScope : scope.binding? site.name = some binding := by
      simpa [CallStack.binding?, Frame.binding?, frameFound, scopeFound] using found
    have scopeTyped : scope.Typed := by
      rw [CallStack.frame?_eq] at frameFound
      exact typed frame (Height.mem_of_get?_eq_some frameFound) scope
        (Height.mem_of_get?_eq_some scopeFound)
    exact scopeTyped.store inScope value
  variableDeclared machine binding frame fresh declares typed := by
    unfold Frame.declareVariable at declares
    split at declares
    · cases declares
    · cases declares
      exact typed.modifyCurrent
        (typed.current.modifyInnermost fun _ scope => scope.insertVariable (.of_declared fresh))
  callableDeclared machine declared _ typed :=
    typed.modifyCurrent
      (typed.current.declareCallable fun _ scope => ⟨scope.distinct, scope.typed⟩)

theorem typed_invariant : Machine.Invariant (Machine.Everywhere Scope.Typed) :=
  typed_maintained.invariant
    (.initial fun scope unbound => by
      constructor
      · simp [unbound]
      · simp [unbound])
    fun _ _ inherits => inherits

/-- On every machine that a session passes through, every variable but that of a pipe
holds nothing or a value of its declared type, and every variable that is not
initialized holds nothing. -/
theorem variables_hold_declared_types (machine : Machine) (passed : machine.Passed) :
    ∀ frame ∈ machine.stack.frames, ∀ scope ∈ frame.scopes, ∀ binding ∈ scope.bindings,
      (binding.name ≠ pipeName →
        binding.value = .nothing ∨ binding.value.type = binding.declarator.type) ∧
      (binding.initialized = false → binding.value = .nothing) := by
  intro frame frameMember scope scopeMember binding member
  have typed := typed_invariant.of_passed passed frame frameMember scope scopeMember
  have bindingTyped := typed.typed binding member
  exact ⟨bindingTyped.value, bindingTyped.uninitialized⟩

/-- A parameter for texts refers to a variable for facts.  In the middle of the call,
after an empty text has been assigned to the parameter, the variable holds a fact,
the parameter the text it was bound to, and a variable without a value nothing. -/
theorem variables_hold_declared_types_after_assignment_to_reference :
    let place : Span := .firstCharacter
    let program : Statement := .compound place
      [.variable ⟨place, true, .fact, "x"⟩ (some (.literal place (.fact true))),
        .variable ⟨place, true, .text, "y"⟩ none,
        .function ⟨place, "F", false, [⟨place, true, .text, "p"⟩], .nothing⟩
          (.expression (.assign place (.identifier place "p") (.literal place (.text "")))),
        .expression (.call place "F" [.identifier place "x"])]
    ∃ machine ∈ ((execute Limits.standard.maxDepth 12 program : Tracing Flow) .initial).passed,
      machine.Passed ∧
      (machine.stack.frames.flatMap Frame.bindings).map (fun binding =>
        (binding.name, binding.declarator.type, binding.value, binding.reference)) =
          [("p", .text, .text "TRUE", some ⟨0, 2, "x"⟩), ("y", .text, .nothing, none),
            ("x", .fact, .fact false, none)] ∧
      ∀ frame ∈ machine.stack.frames, ∀ scope ∈ frame.scopes, ∀ binding ∈ scope.bindings,
        (binding.name ≠ pipeName →
          binding.value = .nothing ∨ binding.value.type = binding.declarator.type) ∧
        (binding.initialized = false → binding.value = .nothing) := by
  intro place program
  have evaluated : ((execute (Session.start .standard).limits.maxDepth 12 program : Tracing Flow)
      (Session.start .standard).machine).passed.any (fun machine => decide
        ((machine.stack.frames.flatMap Frame.bindings).map (fun binding =>
          (binding.name, binding.declarator.type, binding.value, binding.reference)) =
            [("p", .text, .text "TRUE", some ⟨0, 2, "x"⟩), ("y", .text, .nothing, none),
              ("x", .fact, .fact false, none)])) = true := by
    decide +kernel
  obtain ⟨machine, member, holdings⟩ := List.any_eq_true.mp evaluated
  have passed : machine.Passed := .executing (.start .standard) member
  exact ⟨machine, member, passed, of_decide_eq_true holdings,
    variables_hold_declared_types machine passed⟩

end Plainspoken
