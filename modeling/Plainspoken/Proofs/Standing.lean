import Plainspoken.Proofs.DistinctNames
import Plainspoken.Proofs.Standpoints

/-!
# Machines that fit a standpoint

A machine fits a standpoint if its open scopes are the regions of the standpoint, frame by
frame: a scope has a variable of a reserved name just where the region binds this name.
Every step of an evaluation leads from machines that fit one standpoint to machines that
fit the next one.

On a machine that fits, a reserved name is found in the current frame, or else in the frame
of the program, or nowhere, as the standpoint says.
-/

namespace Plainspoken

open List (Forall₂)
open Stepping Evaluation

theorem Height.forall₂_modify_right {α β : Type} {related : α → β → Prop} {change : β → β}
    (changed : ∀ {first second}, related first second → related first (change second))
    {firsts : List α} {seconds : List β} (lists : Forall₂ related firsts seconds)
    (height : Nat) : Forall₂ related firsts (modify seconds height change) := by
  have atPosition (position : Nat) : Forall₂ related firsts (seconds.modify position change) := by
    induction lists generalizing position with
    | nil => simp
    | cons top rest ih =>
        cases position with
        | zero => exact .cons (changed top) rest
        | succ position => exact .cons top (ih position)
  unfold modify
  split
  · exact atPosition _
  · exact lists

/-! ## Regions and scopes -/

/-- A region has variables of the reserved names that it binds, and of no others.  They hold
a value of their own. -/
structure Region.Holds (region : Region) (bindings : List Variable) : Prop where
  bound {name : String} (reserved : isReservedName name = true) :
    name ∈ bindings.map Variable.name ↔ region.binds name = true
  settled {binding : Variable} (member : binding ∈ bindings)
    (reserved : isReservedName binding.name = true) :
    binding.reference = none ∧ binding.initialized = true

namespace Region.Holds

variable {region : Region}

theorem nil : Region.block.Holds [] where
  bound _ := by simp [binds]
  settled member _ := by cases member

/-- A region with a single variable, which the language binds. -/
theorem singleton {declarator : Declarator} {value : Value}
    (binds : ∀ name, region.binds name = (name == declarator.name)) :
    region.Holds [.holding declarator value] where
  bound _ := by simp [binds, Variable.holding, Variable.name]
  settled member _ := by
    rw [List.mem_singleton.mp member]
    exact ⟨rfl, rfl⟩

theorem insertVariable {scope : Scope} {inserted : Variable} (holds : region.Holds scope.bindings)
    (free : isReservedName inserted.name = false) :
    region.Holds (scope.insertVariable inserted).bindings where
  bound {name} reserved := by
    have other : name ≠ inserted.name := by
      rintro rfl
      rw [free] at reserved
      cases reserved
    rw [← holds.bound reserved]
    simp only [Scope.insertVariable, List.map_cons, List.mem_cons, other, false_or, List.mem_map,
      List.mem_filter]
    constructor
    · rintro ⟨binding, ⟨member, -⟩, isName⟩
      exact ⟨binding, member, isName⟩
    · rintro ⟨binding, member, rfl⟩
      exact ⟨binding, ⟨member, by simpa using other⟩, rfl⟩
  settled {binding} member reserved := by
    rcases List.mem_cons.mp member with rfl | wasThere
    · rw [free] at reserved
      cases reserved
    · exact holds.settled (List.mem_of_mem_filter wasThere) reserved

theorem store {scope : Scope} (holds : region.Holds scope.bindings) (name : String)
    (value : Value) :
    region.Holds (scope.modifyVariable name (·.store value)).bindings := by
  have named (binding : Variable) :
      (if binding.name == name then binding.store value else binding).name = binding.name := by
    split <;> rfl
  constructor
  · intro name reserved
    rw [← holds.bound reserved, Scope.modifyVariable, List.map_map]
    simp only [Function.comp_def, named]
  · intro binding member reserved
    obtain ⟨earlier, wasThere, rfl⟩ := List.mem_map.mp member
    rw [named] at reserved
    have settled := holds.settled wasThere reserved
    split
    · exact ⟨settled.1, rfl⟩
    · exact settled

end Region.Holds

/-! ## Frames -/

/-- The scopes of a frame are the regions around a place. -/
def Frame.Fits (place : List Region) (frame : Frame) : Prop :=
  Forall₂ (fun region scope => region.Holds scope.bindings) place frame.scopes

namespace Frame.Fits

variable {place : List Region} {frame : Frame}

theorem of_map_bindings_eq {after : Frame} (fits : frame.Fits place)
    (same : after.scopes.map Scope.bindings = frame.scopes.map Scope.bindings) :
    after.Fits place := by
  have view (frame : Frame) : frame.Fits place ↔
      Forall₂ Region.Holds place (frame.scopes.map Scope.bindings) := by
    rw [List.forall₂_map_right_iff]
    rfl
  rw [view] at fits ⊢
  rwa [same]

theorem setFlags (fits : frame.Fits place) (flags : Flags) : (frame.setFlags flags).Fits place :=
  fits.of_map_bindings_eq (frame.map_bindings_modifyInnermost fun _ => rfl)

theorem unsetFlags (fits : frame.Fits place) (flags : Flags) :
    (frame.unsetFlags flags).Fits place :=
  fits.of_map_bindings_eq (frame.map_bindings_modifyInnermost fun _ => rfl)

theorem insertVariable {inserted : Variable} (fits : frame.Fits place)
    (free : isReservedName inserted.name = false) :
    (frame.insertVariable inserted).Fits place := by
  unfold Fits Frame.insertVariable Frame.modifyInnermost at *
  generalize frame.scopes = scopes at fits
  cases fits with
  | nil => exact .nil
  | cons inner outer => exact .cons (inner.insertVariable free) outer

theorem declareVariable {declared : Variable} {after : Frame} (fits : frame.Fits place)
    (free : isReservedName declared.name = false)
    (declares : frame.declareVariable declared = .ok after) : after.Fits place := by
  unfold Frame.declareVariable at declares
  split at declares
  · cases declares
  · cases declares
    exact fits.insertVariable free

theorem store (fits : frame.Fits place) (level : Nat) (name : String) (value : Value) :
    (frame.modifyVariable level name (·.store value)).Fits place :=
  Height.forall₂_modify_right (fun holds => holds.store name value) fits level

/-! ### Frames that are opened -/

theorem functionFrame (signature : FunctionSignature) (span : Span) {parameters : List Variable}
    (free : ∀ parameter ∈ parameters, isReservedName parameter.name = false) :
    (functionFrame signature span parameters).Fits [.block] := by
  have inserted (frame : Frame) (fits : frame.Fits [.block]) :
      (parameters.foldl Frame.insertVariable frame).Fits [.block] := by
    induction parameters generalizing frame with
    | nil => exact fits
    | cons parameter parameters ih =>
        rw [List.forall_mem_cons] at free
        exact ih free.2 _ (fits.insertVariable free.1)
  have started : (Frame.start signature.name span signature.returns).Fits [.block] :=
    .cons .nil .nil
  exact (inserted _ started).setFlags _

theorem patternFrame {signature : PatternSignature} (span : Span) (value : Value)
    (site : Option Site) (free : isReservedName signature.parameter.name = false) :
    (patternFrame signature span value site).Fits [.branches] := by
  have subject : ((Frame.start signature.name span .nothing).insertVariable
      (.holding ⟨signature.parameter.span, false, signature.parameter.type, subjectName⟩
        value)).Fits [.branches] :=
    .cons (.singleton fun _ => rfl) .nil
  have parameter := @insertVariable _ _ (bindParameter signature.parameter value site) subject free
  exact parameter.setFlags _

/-! ### Reserved names -/

theorem settled (fits : frame.Fits place) {scope : Scope} (isOpen : scope ∈ frame.scopes)
    {binding : Variable} (member : binding ∈ scope.bindings)
    (reserved : isReservedName binding.name = true) :
    binding.reference = none ∧ binding.initialized = true := by
  unfold Fits at fits
  generalize frame.scopes = scopes at fits isOpen
  induction fits with
  | nil => cases isOpen
  | cons holds _ ih =>
      rcases List.mem_cons.mp isOpen with rfl | isOuter
      · exact holds.settled member reserved
      · exact ih isOuter

variable (fits : frame.Fits place) {name : String} (reserved : isReservedName name = true)

include fits reserved

theorem find?_eq_none_iff :
    frame.find? name = none ↔ place.any (·.binds name) = false := by
  rw [Frame.find?_eq_none_iff, List.any_eq_false]
  unfold Fits at fits
  generalize frame.scopes = scopes at fits
  induction fits with
  | nil => simp
  | cons holds _ ih =>
      rw [List.forall_mem_cons, List.forall_mem_cons, ih, Scope.binding?_eq_none_iff,
        Scope.names, holds.bound reserved]

/-- A reserved name that is bound has a variable, which holds a value of its own. -/
theorem exists_binding (bound : place.any (·.binds name) = true) :
    ∃ height binding, frame.find? name = some height ∧
      frame.binding? height name = some binding ∧ binding.reference = none ∧
      binding.initialized = true := by
  cases found : frame.find? name with
  | none =>
      rw [find?_eq_none_iff fits reserved, bound] at found
      cases found
  | some height =>
      obtain ⟨binding, isBinding⟩ :=
        Option.isSome_iff_exists.mp (Frame.isSome_binding?_of_find? found)
      obtain ⟨scope, scopeFound, inScope⟩ := Option.bind_eq_some_iff.mp isBinding
      have named : binding.name = name := by simpa using List.find?_some inScope
      have settled := fits.settled (Height.mem_of_get?_eq_some scopeFound)
        (List.mem_of_find?_eq_some inScope) (named ▸ reserved)
      exact ⟨height, binding, rfl, isBinding, settled⟩

end Frame.Fits

/-- The variable that is found is the innermost one of its name. -/
theorem Frame.held_of_find? {frame : Frame} {name : String} {height : Nat} {binding : Variable}
    (found : frame.find? name = some height)
    (isBinding : frame.binding? height name = some binding) :
    frame.held name = binding.value := by
  have innermost (scopes : List Scope) (found : Frame.findIn name scopes = some height) :
      (Height.get? scopes height).bind (·.binding? name) =
        scopes.findSome? (·.binding? name) := by
    induction scopes with
    | nil => cases found
    | cons inner outer ih =>
        rw [Frame.findIn] at found
        cases here : inner.binding? name with
        | some binding =>
            rw [here] at found
            cases found
            rw [Height.get?_cons_length, List.findSome?_cons_of_isSome (by rw [here]; rfl)]
            rfl
        | none =>
            rw [here] at found
            have outside := ih found
            obtain ⟨binding, isBinding⟩ :=
              Option.isSome_iff_exists.mp (Frame.isSome_binding?_of_findIn found)
            obtain ⟨scope, scopeFound, -⟩ := Option.bind_eq_some_iff.mp isBinding
            rw [Height.get?_cons_of_lt (Height.lt_of_get?_eq_some scopeFound), outside,
              List.findSome?_cons_of_isNone (by rw [here]; rfl)]
  unfold Frame.held
  rw [← innermost frame.scopes found]
  change ((frame.binding? height name).map Variable.value).getD .nothing = binding.value
  rw [isBinding]
  rfl

/-! ## Machines -/

/-- The frames of a machine fit the places of a standpoint.  Whatever can be called is of the
standard library, or the program declares it. -/
structure Machine.Stands (program : Statement) (standpoint : Standpoint) (machine : Machine) :
    Prop where
  hosts : machine.Hosts program
  here : machine.current.Fits standpoint.here
  callers : Forall₂ (fun place frame => Frame.Fits place frame) standpoint.callers
    machine.stack.callers

namespace Machine.Stands

variable {program : Statement} {standpoint : Standpoint} {machine : Machine}

theorem start (fresh : machine.stack = Machine.initial.stack) :
    machine.Stands program .start where
  hosts := .of_stack_eq fresh
  here := by
    unfold Machine.current
    rw [fresh]
    exact .cons .nil (.cons .nil .nil)
  callers := by
    rw [fresh]
    exact .nil

variable (stands : machine.Stands program standpoint)

include stands

/-- A quiet change of the current frame that leaves its regions as they are. -/
theorem modifyCurrent {change : Frame → Frame}
    (quiet : machine.Quiet (machine.modifyCurrent change))
    (fits : (change machine.current).Fits standpoint.here) :
    (machine.modifyCurrent change).Stands program standpoint :=
  ⟨stands.hosts.quiet quiet, fits, stands.callers⟩

theorem noted (depth : Nat) (lastValue : Value) (emitted : Transcript) :
    Stands program standpoint ⟨machine.stack, depth, lastValue, emitted⟩ :=
  ⟨stands.hosts.quiet (.noted machine depth lastValue emitted), stands.here, stands.callers⟩

theorem mark (span : Span) : (machine.mark span).Stands program standpoint :=
  stands.modifyCurrent (.marked machine span) (stands.here.of_map_bindings_eq rfl)

theorem setFlags (flags : Flags) : (machine.setFlags flags).Stands program standpoint :=
  stands.modifyCurrent (.flagsSet machine flags) (stands.here.setFlags flags)

theorem unsetFlags (flags : Flags) : (machine.unsetFlags flags).Stands program standpoint :=
  stands.modifyCurrent (.flagsUnset machine flags) (stands.here.unsetFlags flags)

theorem store (site : Site) (value : Value) :
    (machine.store site value).Stands program standpoint := by
  have hosts := stands.hosts.store site value
  unfold Machine.store CallStack.modifyVariable at *
  split at hosts
  · next isTop =>
    rw [if_pos isTop]
    exact ⟨hosts, stands.here.store _ _ _, stands.callers⟩
  · next notTop =>
    rw [if_neg notTop]
    exact ⟨hosts, stands.here, Height.forall₂_modify_right (fun fits => fits.store _ _ _)
      stands.callers _⟩

theorem declareVariable {declared : Variable} {frame : Frame}
    (free : isReservedName declared.name = false)
    (declares : machine.current.declareVariable declared = .ok frame) :
    (machine.modifyCurrent fun _ => frame).Stands program standpoint :=
  ⟨stands.hosts.declareVariable declares, stands.here.declareVariable free declares,
    stands.callers⟩

theorem declareCallable {declared : Callable} (isPart : program.IsPart declared.declaration) :
    (machine.modifyCurrent fun _ =>
      (machine.current.declareCallable declared).2).Stands program standpoint :=
  ⟨stands.hosts.declareCallable isPart,
    stands.here.of_map_bindings_eq (Frame.map_bindings_declareCallable _ _), stands.callers⟩

theorem pushScope {scope : Scope} {region : Region} (bare : scope.entries = [])
    (holds : region.Holds scope.bindings) :
    (machine.pushScope scope).Stands program (standpoint.inside region) :=
  ⟨stands.hosts.pushScope bare, .cons holds stands.here, stands.callers⟩

omit stands in
theorem popScope {region : Region} (stands : machine.Stands program (standpoint.inside region)) :
    machine.popScope.Stands program standpoint := by
  refine ⟨stands.hosts.quiet (.scopeClosed machine), ?_, stands.callers⟩
  have regions : Forall₂ _ (region :: standpoint.here) machine.current.scopes := stands.here
  change Forall₂ _ standpoint.here machine.current.scopes.tail
  generalize machine.current.scopes = scopes at regions
  cases regions with
  | cons _ outer => exact outer

theorem pushFrame {frame : Frame} {region : Region}
    (bare : ∀ scope ∈ frame.scopes, scope.entries = []) (fits : frame.Fits [region]) :
    (machine.pushFrame frame).Stands program (standpoint.calling region) :=
  ⟨stands.hosts.pushFrame bare, fits, .cons stands.here stands.callers⟩

omit stands in
theorem popFrame {region : Region} (stands : machine.Stands program (standpoint.calling region)) :
    machine.popFrame.Stands program standpoint := by
  have hosts := stands.hosts.quiet (.frameClosed machine)
  have frames := stands.callers
  obtain ⟨⟨current, callers⟩, depth, lastValue, emitted⟩ := machine
  cases frames with
  | cons here callers => exact ⟨hosts, here, callers⟩

/-- The frame of the program fits the place that the program has reached. -/
theorem globalFrame : machine.stack.globalFrame.Fits standpoint.program := by
  have lasts {places : List (List Region)} {frames : List Frame} {place : List Region}
      {frame : Frame} (related : Forall₂ (fun place frame => Frame.Fits place frame) places frames)
      (fits : frame.Fits place) : (frames.getLastD frame).Fits (places.getLastD place) := by
    induction related generalizing place frame with
    | nil => exact fits
    | cons head _ ih =>
        rw [List.getLastD_cons, List.getLastD_cons]
        exact ih head
  exact lasts stands.callers stands.here

/-- What is stored under a reserved name is decided by the standpoint. -/
theorem valueOf {name : String} (reserved : isReservedName name = true) :
    machine.valueOf name =
      if standpoint.bindsHere name then .ok (machine.current.held name)
      else if standpoint.bindsInProgram name then .ok (machine.stack.globalFrame.held name)
      else .error (undefinedName name) := by
  have found {site : Site} {binding : Variable} (found : machine.stack.find? name = some site)
      (isBinding : machine.stack.binding? site = some binding)
      (settled : binding.reference = none ∧ binding.initialized = true) :
      machine.valueOf name = .ok binding.value := by
    have isOwner : machine.stack.owner site = site := by
      simp [CallStack.owner, isBinding, settled.1]
    simp [Machine.valueOf, Machine.ownerOf?, found, isOwner, isBinding, settled.2]
  split
  · next bound =>
    obtain ⟨height, binding, here, isBinding, settled⟩ := stands.here.exists_binding reserved bound
    rw [Frame.held_of_find? here isBinding]
    refine @found ⟨machine.stack.height, height, name⟩ binding ?_ ?_ settled
    · unfold CallStack.find?
      rw [show machine.stack.current.find? name = some height from here]
    · rw [CallStack.binding?_of_frame_eq_height rfl]
      exact isBinding
  · next unbound =>
    have notHere : machine.stack.current.find? name = none :=
      (stands.here.find?_eq_none_iff reserved).mpr (Bool.eq_false_iff.mpr unbound)
    split
    · next bound =>
      obtain ⟨height, binding, there, isBinding, settled⟩ :=
        stands.globalFrame.exists_binding reserved bound
      rw [Frame.held_of_find? there isBinding]
      refine @found ⟨0, height, name⟩ binding ?_ ?_ settled
      · unfold CallStack.find?
        rw [notHere, there]
        rfl
      · rw [CallStack.binding?, CallStack.frame?_zero]
        exact isBinding
    · next unboundThere =>
      have notThere := (stands.globalFrame.find?_eq_none_iff reserved).mpr
        (Bool.eq_false_iff.mpr unboundThere)
      simp [Machine.valueOf, Machine.ownerOf?, CallStack.find?, notHere, notThere]

end Machine.Stands

end Plainspoken
