import Plainspoken.Proofs.Fuel
import Plainspoken.Proofs.Immutability
import Plainspoken.Proofs.TypedStore

/-!
# One variable for a name

In every frame a name that is not reserved is declared by one scope at most, so that
the innermost variable of a name, which is the one that is found, is the only one.

Variables come into a frame in different ways.  A declaration is checked against all
scopes of the frame; parameters share the one scope with which a frame starts; and a
pipe and a match bind nothing but the reserved names.  A frame is not concerned with
the names of the frames below it, and a block leaves none of its names behind, so that
both may be used again there.
-/

namespace Plainspoken

open List (Forall₂)
open Stepping Evaluation

/-! ## The names of a frame -/

def Scope.names (scope : Scope) : List String :=
  scope.bindings.map Variable.name

def Frame.names (frame : Frame) : List (List String) :=
  frame.scopes.map Scope.names

namespace Scope

theorem isSome_binding?_iff {scope : Scope} {name : String} :
    (scope.binding? name).isSome = true ↔ name ∈ scope.names := by
  unfold binding? names
  simp

theorem binding?_eq_none_iff {scope : Scope} {name : String} :
    scope.binding? name = none ↔ name ∉ scope.names := by
  rw [← isSome_binding?_iff]
  simp

private theorem names_eq_of_forall₂ {before after : Scope}
    (alike : Forall₂ Variable.Alike before.bindings after.bindings) :
    after.names = before.names := by
  unfold names
  generalize before.bindings = bindings at alike
  generalize after.bindings = laterBindings at alike
  induction alike with
  | nil => rfl
  | cons first _ ih => rw [List.map_cons, List.map_cons, first.name_eq, ih]

end Scope

namespace Frame

private theorem names_eq_of_map_bindings_eq {frame after : Frame}
    (same : after.scopes.map Scope.bindings = frame.scopes.map Scope.bindings) :
    after.names = frame.names := by
  have view (frame : Frame) : frame.names =
      (frame.scopes.map Scope.bindings).map (·.map Variable.name) := by
    rw [List.map_map]
    rfl
  rw [view, view, same]

private theorem Completed.names_eq {before after : Frame} (completed : before.Completed after) :
    after.names = before.names := by
  have completes := completed.scopes
  unfold names
  generalize before.scopes = scopes at completes
  generalize after.scopes = laterScopes at completes
  induction completes with
  | nil => rfl
  | cons inner _ ih =>
      rw [List.map_cons, List.map_cons, Scope.names_eq_of_forall₂ inner.bindings, ih]

/-- Where a name is found depends on the names of the scopes only. -/
theorem find?_of_names_eq {frame after : Frame} (same : after.names = frame.names)
    (name : String) : after.find? name = frame.find? name := by
  unfold names at same
  unfold find?
  generalize frame.scopes = scopes at same
  generalize after.scopes = laterScopes at same
  induction scopes generalizing laterScopes with
  | nil => rw [List.map_eq_nil_iff.mp same]
  | cons inner outer ih =>
      cases laterScopes with
      | nil => cases same
      | cons laterInner laterOuter =>
          obtain ⟨sameInner, sameOuter⟩ := List.cons_eq_cons.mp same
          have sameHere :
              (laterInner.binding? name).isSome = (inner.binding? name).isSome := by
            rw [Bool.eq_iff_iff, Scope.isSome_binding?_iff, Scope.isSome_binding?_iff, sameInner]
          have sameLength : laterOuter.length = outer.length := by
            simpa using congrArg List.length sameOuter
          rw [findIn, findIn, sameHere, sameLength, ih laterOuter sameOuter]

theorem find?_eq_none_iff {frame : Frame} {name : String} :
    frame.find? name = none ↔ ∀ scope ∈ frame.scopes, scope.binding? name = none := by
  unfold find?
  induction frame.scopes with
  | nil => simp [findIn]
  | cons inner outer ih =>
      rw [findIn, List.forall_mem_cons, ← ih]
      cases inner.binding? name with
      | none => simp
      | some binding => simp

/-- A variable may be declared if and only if its name is not found in the frame. -/
theorem exists_declareVariable_iff {frame : Frame} {binding : Variable} :
    (∃ after, frame.declareVariable binding = .ok after) ↔ frame.find? binding.name = none := by
  rw [find?_eq_none_iff]
  unfold declareVariable
  constructor
  · rintro ⟨after, declares⟩ scope member
    split at declares
    · cases declares
    · next fresh => exact List.findSome?_eq_none_iff.mp fresh scope (List.mem_reverse.mpr member)
  · intro fresh
    have noneFound : frame.scopes.reverse.findSome? (·.binding? binding.name) = none :=
      List.findSome?_eq_none_iff.mpr fun scope member =>
        fresh scope (List.mem_reverse.mp member)
    rw [noneFound]
    exact ⟨_, rfl⟩

/-! ## Frames without a name twice -/

/-- No name is declared twice in the frame, but for the reserved ones. -/
def Distinct (frame : Frame) : Prop :=
  (frame.names.flatten.filter fun name => !isReservedName name).Nodup

namespace Distinct

variable {frame : Frame}

theorem of_names_eq {after : Frame} (distinct : frame.Distinct)
    (same : after.names = frame.names) : after.Distinct := by
  unfold Distinct
  rw [same]
  exact distinct

theorem modifyInnermost (distinct : frame.Distinct) {change : Scope → Scope}
    (kept : ∀ scope : Scope, (change scope).bindings = scope.bindings) :
    (frame.modifyInnermost change).Distinct :=
  distinct.of_names_eq (names_eq_of_map_bindings_eq (frame.map_bindings_modifyInnermost kept))

theorem pushScope (distinct : frame.Distinct) {scope : Scope}
    (reserved : ∀ name ∈ scope.names, isReservedName name = true) :
    (frame.pushScope scope).Distinct := by
  have noneChosen : (scope.names.filter fun name => !isReservedName name) = [] := by
    simpa using reserved
  change ((scope.names ++ frame.names.flatten).filter _).Nodup
  rw [List.filter_append, noneChosen, List.nil_append]
  exact distinct

theorem popScope (distinct : frame.Distinct) : frame.popScope.Distinct := by
  have fewer : frame.popScope.names.flatten.Sublist frame.names.flatten := by
    unfold names Frame.popScope
    cases frame.scopes with
    | nil => exact List.Sublist.refl _
    | cons inner outer => exact List.sublist_append_right _ _
  exact List.Nodup.sublist (fewer.filter _) distinct

/-- A name that is declared is new to all scopes of the frame. -/
theorem declareVariable {binding : Variable} {after : Frame} (distinct : frame.Distinct)
    (declares : frame.declareVariable binding = .ok after) : after.Distinct := by
  unfold Frame.declareVariable at declares
  split at declares
  · cases declares
  · next fresh =>
    cases declares
    have isNew : ∀ scope ∈ frame.scopes, binding.name ∉ scope.names := by
      intro scope member
      rw [← Scope.binding?_eq_none_iff]
      exact List.findSome?_eq_none_iff.mp fresh scope (List.mem_reverse.mpr member)
    unfold Distinct names at distinct ⊢
    unfold Frame.insertVariable Frame.modifyInnermost
    cases scopes : frame.scopes with
    | nil => exact List.nodup_nil
    | cons inner outer =>
        rw [scopes] at distinct isNew
        have innerNames : (inner.insertVariable binding).names = binding.name :: inner.names := by
          have unbound := Scope.binding?_eq_none_iff.mpr (isNew inner List.mem_cons_self)
          unfold Scope.names
          rw [Scope.insertVariable_bindings_of_binding?_eq_none unbound, List.map_cons]
        have unused : binding.name ∉ ((inner :: outer).map Scope.names).flatten := by
          simpa [List.mem_flatten] using isNew
        rw [List.modifyHead_cons, List.map_cons, innerNames, List.flatten_cons, List.cons_append,
          List.filter_cons]
        split
        · exact List.nodup_cons.mpr ⟨fun member => unused (List.mem_of_mem_filter member), distinct⟩
        · exact distinct

theorem of_opened (opened : frame.Opened) : frame.Distinct := by
  have typed := opened.typed
  have oneScope : frame.scopes.length = 1 := by
    have inserted (frame : Frame) (parameters : List Variable) :
        (parameters.foldl Frame.insertVariable frame).scopes.length = frame.scopes.length := by
      induction parameters generalizing frame with
      | nil => rfl
      | cons parameter parameters ih =>
          rw [List.foldl_cons, ih, Frame.insertVariable, Frame.modifyInnermost,
            List.length_modifyHead]
    cases opened with
    | function signature span bound =>
        simp [functionFrame, Frame.setFlags, Frame.modifyInnermost, inserted, Frame.start]
    | pattern signature span value site => rfl
  obtain ⟨only, scopes⟩ := List.length_eq_one_iff.mp oneScope
  have onlyTyped : only.Typed := typed only (by simp [scopes])
  have names : frame.names.flatten = only.names := by simp [Frame.names, scopes]
  unfold Distinct
  rw [names]
  exact onlyTyped.distinct.filter _

/-- Of a name that is not reserved there is one scope at most. -/
theorem height_eq (distinct : frame.Distinct) {name : String}
    (chosen : isReservedName name = false) {first second : Nat}
    (firstFound : (frame.binding? first name).isSome = true)
    (secondFound : (frame.binding? second name).isSome = true) : first = second := by
  unfold Distinct names at distinct
  unfold Frame.binding? Frame.scope? at firstFound secondFound
  induction scopes : frame.scopes generalizing frame with
  | nil => simp [scopes] at firstFound
  | cons inner outer ih =>
      rw [scopes] at distinct firstFound secondFound
      rw [List.map_cons, List.flatten_cons, List.filter_append, List.nodup_append] at distinct
      obtain ⟨-, outerDistinct, disjoint⟩ := distinct
      -- a name of the innermost scope is one of no scope around it
      have notBoth {height : Nat} (inside : name ∈ inner.names)
          (outside : ((Height.get? outer height).bind (·.binding? name)).isSome = true) :
          False := by
        obtain ⟨binding, found⟩ := Option.isSome_iff_exists.mp outside
        obtain ⟨scope, scopeFound, bindingFound⟩ := Option.bind_eq_some_iff.mp found
        have member : name ∈ scope.names := by
          rw [← Scope.isSome_binding?_iff, bindingFound, Option.isSome_some]
        refine disjoint name (by simp [inside, chosen]) name ?_ rfl
        simp only [List.mem_filter, List.mem_flatten, List.mem_map]
        exact ⟨⟨_, ⟨scope, Height.mem_of_get?_eq_some scopeFound, rfl⟩, member⟩, by simp [chosen]⟩
      rw [Height.get?_cons] at firstFound secondFound
      split at firstFound
      · next firstHere =>
        have inside : name ∈ inner.names := Scope.isSome_binding?_iff.mp firstFound
        split at secondFound
        · next secondHere => rw [firstHere, secondHere]
        · exact (notBoth inside secondFound).elim
      · split at secondFound
        · exact (notBoth (Scope.isSome_binding?_iff.mp secondFound) firstFound).elim
        · exact @ih { frame with scopes := outer } outerDistinct firstFound secondFound rfl

/-- The scope in which a name is found is the only one that declares it. -/
theorem find?_eq_some_iff (distinct : frame.Distinct) {name : String}
    (chosen : isReservedName name = false) {height : Nat} :
    frame.find? name = some height ↔ (frame.binding? height name).isSome = true := by
  constructor
  · exact Frame.isSome_binding?_of_find?
  · intro declared
    cases found : frame.find? name with
    | none =>
        obtain ⟨binding, bindingFound⟩ := Option.isSome_iff_exists.mp declared
        obtain ⟨scope, scopeFound, inScope⟩ := Option.bind_eq_some_iff.mp bindingFound
        have unbound := find?_eq_none_iff.mp found scope (Height.mem_of_get?_eq_some scopeFound)
        rw [unbound] at inScope
        cases inScope
    | some other =>
        rw [distinct.height_eq chosen (Frame.isSome_binding?_of_find? found) declared]

end Distinct

end Frame

/-! ## Machines -/

/-- No frame declares a name twice, but for the reserved ones. -/
def Machine.Distinct (machine : Machine) : Prop :=
  ∀ frame ∈ machine.stack.frames, frame.Distinct

namespace Machine.Distinct

variable {machine : Machine} (distinct : machine.Distinct)

include distinct

theorem current : machine.current.Distinct :=
  distinct machine.current List.mem_cons_self

theorem modifyCurrent {change : Frame → Frame} (changed : (change machine.current).Distinct) :
    (machine.modifyCurrent change).Distinct := by
  intro frame member
  rcases List.mem_cons.mp member with rfl | isCaller
  · exact changed
  · exact distinct frame (List.mem_cons_of_mem _ isCaller)

theorem pushScope {scope : Scope} (opened : scope.Opened) :
    (machine.pushScope scope).Distinct := by
  apply distinct.modifyCurrent
  apply distinct.current.pushScope
  cases opened with
  | block => exact List.forall_mem_nil _
  | pipe span value => exact List.forall_mem_singleton.mpr rfl
  | subject span value => exact List.forall_mem_singleton.mpr rfl

theorem pushFrame {frame : Frame} (opened : frame.Opened) :
    (machine.pushFrame frame).Distinct :=
  List.forall_mem_cons.mpr ⟨.of_opened opened, distinct⟩

theorem popFrame : machine.popFrame.Distinct := by
  obtain ⟨⟨current, callers⟩, depth, lastValue, emitted⟩ := machine
  cases callers with
  | nil => exact distinct
  | cons caller callers => exact (List.forall_mem_cons.mp distinct).2

theorem of_alike {after : Machine} (alike : machine.stack.Alike after.stack) :
    after.Distinct := by
  intro frame member
  obtain ⟨earlier, earlierMember, frameAlike⟩ := exists_mem_of_forall₂ alike.frames member
  exact (distinct earlier earlierMember).of_names_eq frameAlike.completed.names_eq

theorem store (site : Site) (value : Value) : (machine.store site value).Distinct :=
  distinct.of_alike (.store machine site value)

end Machine.Distinct

/-- Every change that evaluation makes keeps the names of a frame distinct. -/
theorem distinct_maintained : Machine.Maintained fun machine after =>
    machine.Distinct → after.Distinct where
  refl _ distinct := distinct
  trans firstSecond secondThird distinct := secondThird (firstSecond distinct)
  noted _ _ _ _ distinct := distinct
  marked _ _ distinct := distinct.modifyCurrent distinct.current
  flagsSet _ _ distinct := distinct.modifyCurrent (distinct.current.modifyInnermost fun _ => rfl)
  flagsUnset _ _ distinct := distinct.modifyCurrent (distinct.current.modifyInnermost fun _ => rfl)
  scopeOpened _ _ opened distinct := distinct.pushScope opened
  scopeClosed opened inside distinct := by
    have after := inside (distinct.pushScope opened)
    exact after.modifyCurrent after.current.popScope
  frameOpened _ _ opened distinct := distinct.pushFrame opened
  frameClosed opened inside distinct := (inside (distinct.pushFrame opened)).popFrame
  stored _ site _ _ _ _ distinct := distinct.store site _
  variableDeclared _ _ _ _ declares distinct :=
    distinct.modifyCurrent (distinct.current.declareVariable declares)
  callableDeclared machine declared _ distinct :=
    distinct.modifyCurrent (distinct.current.of_names_eq
      (Frame.names_eq_of_map_bindings_eq (machine.current.map_bindings_declareCallable declared)))

theorem distinct_invariant : Machine.Invariant Machine.Distinct :=
  distinct_maintained.invariant (List.forall_mem_singleton.mpr List.nodup_nil)
    fun _ _ inherits => inherits

/-- On every machine that a session passes through, a name that is not reserved is
declared by one scope of a frame at most, and found there.  What may be declared
depends on the names of the current frame alone, whatever the frames below it declare,
and it is the same after a block has finished as before. -/
theorem names_are_declared_once_per_frame (machine : Machine) (passed : machine.Passed) :
    (∀ frame ∈ machine.stack.frames, ∀ name, isReservedName name = false →
      (∀ first second, (frame.binding? first name).isSome = true →
        (frame.binding? second name).isSome = true → first = second) ∧
      ∀ height, frame.find? name = some height ↔ (frame.binding? height name).isSome = true) ∧
    (∀ binding : Variable, (∃ after, machine.current.declareVariable binding = .ok after) ↔
      machine.current.find? binding.name = none) ∧
    ∀ maxDepth span children flow after,
      Executes maxDepth (.compound span children) machine flow after →
        ∀ name, after.current.find? name = machine.current.find? name := by
  refine ⟨?_, fun _ => Frame.exists_declareVariable_iff, ?_⟩
  · intro frame member name chosen
    have distinct := distinct_invariant.of_passed passed frame member
    exact ⟨fun _ _ => distinct.height_eq chosen, fun _ => distinct.find?_eq_some_iff chosen⟩
  · rintro maxDepth span children flow after ⟨fuel, finished⟩
    have completed := execute_compound_completed maxDepth fuel span children machine flow after
      finished
    exact Frame.find?_of_names_eq completed.current.names_eq

/-- Two blocks declare the same name one after the other, and a parameter has the name
of a variable of the program.  In the middle of the call each of the two frames has a
variable of that name, and finds it in the only scope that declares it. -/
theorem parameter_shares_its_name_with_a_variable :
    let place : Span := .firstCharacter
    let declare (name : String) (initial : Option Expression) : Statement :=
      .variable ⟨place, true, .fact, name⟩ initial
    let program : Statement := .compound place
      [declare "x" (some (.literal place (.fact true))),
        .compound place [declare "y" none], .compound place [declare "y" none],
        .function ⟨place, "F", false, [⟨place, true, .fact, "x"⟩], .nothing⟩
          (declare "y" (some (.identifier place "x"))),
        .expression (.call place "F" [.identifier place "x"])]
    ∃ machine ∈ ((execute Limits.standard.maxDepth 12 program : Tracing Flow) .initial).passed,
      machine.Passed ∧ machine.stack.frames.map Frame.names = [[["y", "x"]], [["x"], [], []]] ∧
      ∀ frame ∈ machine.stack.frames, ∀ height,
        frame.find? "x" = some height ↔ (frame.binding? height "x").isSome = true := by
  intro place declare program
  have evaluated : ((execute (Session.start .standard).limits.maxDepth 12 program : Tracing Flow)
      (Session.start .standard).machine).passed.any (fun machine =>
        decide (machine.stack.frames.map Frame.names = [[["y", "x"]], [["x"], [], []]])) =
          true := by
    decide +kernel
  obtain ⟨machine, member, names⟩ := List.any_eq_true.mp evaluated
  have passed : machine.Passed := .executing (.start .standard) member
  obtain ⟨once, -, -⟩ := names_are_declared_once_per_frame machine passed
  refine ⟨machine, member, passed, of_decide_eq_true names, fun frame frameMember => ?_⟩
  exact (once frame frameMember "x" (by decide)).2

end Plainspoken
