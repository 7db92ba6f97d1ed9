import Plainspoken.Proofs.ReferenceSafety

/-!
# What a call can see

A call sees the frames from its own one upwards, the frame of the program, and
those variables of its callers that its parameters refer to.  All other variables
below its frame are hidden from it.

Two machines run alongside each other if they agree on all that a call sees and
each of them holds what is hidden as it was when the call began.  Whatever an
evaluation reads is then the same on both machines, and whatever it changes keeps
them alongside each other: frames that are opened refer to nothing but what could
be seen already, so that nothing comes into sight on the way.
-/

namespace Plainspoken

open List (Forall₂)

/-! ## Elements by height -/

namespace Height

variable {α : Type}

theorem get?_modify (stack : List α) (height other : Nat) (change : α → α) :
    get? (modify stack height change) other =
      if other = height then (get? stack other).map change else get? stack other := by
  unfold modify
  split
  · next within =>
    unfold get?
    rw [List.length_modify]
    by_cases inside : other < stack.length
    · simp only [if_pos inside, List.getElem?_modify]
      by_cases same : other = height
      · subst same
        simp
      · have apart : stack.length - 1 - height ≠ stack.length - 1 - other := by omega
        rw [if_neg same]
        simp [apart]
    · simp [if_neg inside]
  · next outside =>
    split
    · next same =>
      subst same
      simp [get?, outside]
    · rfl

end Height

namespace Scope

theorem binding?_modifyVariable (scope : Scope) (name other : String)
    {change : Variable → Variable} (named : ∀ binding, (change binding).name = binding.name) :
    (scope.modifyVariable name change).binding? other =
      if other = name then (scope.binding? other).map change else scope.binding? other := by
  unfold binding? modifyVariable
  rw [List.find?_map]
  have sought : ((fun binding : Variable => binding.name == other) ∘ fun binding =>
      if binding.name == name then change binding else binding) =
      fun binding => binding.name == other := by
    funext binding
    dsimp only [Function.comp]
    split
    · rw [named]
    · rfl
  rw [sought]
  cases found : scope.bindings.find? fun binding => binding.name == other with
  | none => simp
  | some binding =>
      have isOther : binding.name = other := by simpa using List.find?_some found
      by_cases same : other = name
      · simp [same, isOther]
      · simp [same, isOther]

end Scope

theorem Frame.binding?_modifyVariable (frame : Frame) (height other : Nat) (name otherName : String)
    {change : Variable → Variable} (named : ∀ binding, (change binding).name = binding.name) :
    (frame.modifyVariable height name change).binding? other otherName =
      if other = height ∧ otherName = name then (frame.binding? other otherName).map change
      else frame.binding? other otherName := by
  unfold Frame.binding? Frame.scope? Frame.modifyVariable
  rw [Height.get?_modify]
  by_cases sameScope : other = height
  · rw [if_pos sameScope]
    cases Height.get? frame.scopes other with
    | none => simp
    | some scope =>
        simp only [Option.map_some, Option.bind_some, sameScope, true_and]
        exact scope.binding?_modifyVariable name otherName named
  · rw [if_neg sameScope, if_neg fun same => sameScope same.1]

namespace CallStack

variable (stack : CallStack)

theorem frame?_height : stack.frame? stack.height = some stack.current :=
  if_pos rfl

theorem frame?_eq_none {height : Nat} (above : stack.height < height) :
    stack.frame? height = none := by
  have outside : ¬ height < stack.frames.length := by
    simp only [CallStack.frames, List.length_cons, CallStack.height] at above ⊢
    omega
  rw [frame?_eq, Height.get?, if_neg outside]

@[simp]
theorem height_modifyCurrent (change : Frame → Frame) :
    (stack.modifyCurrent change).height = stack.height :=
  rfl

theorem frame?_modifyCurrent (change : Frame → Frame) (height : Nat) :
    (stack.modifyCurrent change).frame? height =
      if height = stack.height then some (change stack.current) else stack.frame? height := by
  unfold CallStack.frame?
  rw [height_modifyCurrent]
  split
  · rfl
  · rfl

theorem frame?_push (frame : Frame) (height : Nat) :
    (stack.push frame).frame? height =
      if height = stack.height + 1 then some frame else stack.frame? height := by
  rw [frame?_eq, frame?_eq]
  exact Height.get?_cons frame stack.frames height

theorem height_pop : stack.pop.height = stack.height - 1 := by
  obtain ⟨current, callers⟩ := stack
  cases callers <;> rfl

theorem frame?_pop {height : Nat} (below : height < stack.height) :
    stack.pop.frame? height = stack.frame? height := by
  obtain ⟨current, callers⟩ := stack
  cases callers with
  | nil => exact absurd below (Nat.not_lt_zero height)
  | cons caller callers =>
      have notTop : height ≠ (caller :: callers).length := Nat.ne_of_lt below
      rw [frame?_eq, frame?_eq]
      exact ((Height.get?_cons current (caller :: callers) height).trans (if_neg notTop)).symm

@[simp]
theorem height_modifyVariable (site : Site) (change : Variable → Variable) :
    (stack.modifyVariable site change).height = stack.height := by
  unfold CallStack.modifyVariable CallStack.height
  split
  · rfl
  · exact Height.length_modify _ _ _

theorem frame?_modifyVariable (site : Site) (change : Variable → Variable) (height : Nat) :
    (stack.modifyVariable site change).frame? height =
      if height = site.frame then
        (stack.frame? height).map (·.modifyVariable site.scope site.name change)
      else stack.frame? height := by
  unfold CallStack.modifyVariable
  split
  · next isCurrent =>
    rw [frame?_modifyCurrent, isCurrent]
    split
    · next same => rw [same, frame?_height, Option.map_some]
    · rfl
  · next isCaller =>
    unfold CallStack.frame? CallStack.height
    dsimp only
    rw [Height.length_modify, Height.get?_modify]
    by_cases top : height = stack.callers.length
    · have elsewhere : height ≠ site.frame := fun same => isCaller (same ▸ top)
      rw [if_pos top, if_pos top, if_neg elsewhere]
    · rw [if_neg top, if_neg top]

/-- Changing the variable at a site changes what is found there and nowhere
else. -/
theorem binding?_modifyVariable (site other : Site) {change : Variable → Variable}
    (named : ∀ binding, (change binding).name = binding.name) :
    (stack.modifyVariable site change).binding? other =
      if other = site then (stack.binding? other).map change else stack.binding? other := by
  obtain ⟨height, scope, name⟩ := site
  obtain ⟨otherHeight, otherScope, otherName⟩ := other
  unfold CallStack.binding?
  rw [frame?_modifyVariable]
  by_cases sameFrame : otherHeight = height
  · subst sameFrame
    rw [if_pos rfl]
    cases stack.frame? otherHeight with
    | none => simp
    | some frame =>
        simp only [Option.map_some, Option.bind_some, Site.mk.injEq, true_and]
        exact frame.binding?_modifyVariable scope otherScope name otherName named
  · rw [if_neg sameFrame, if_neg fun same => sameFrame (congrArg Site.frame same)]

end CallStack

theorem Machine.binding?_store (machine : Machine) (site other : Site) (value : Value) :
    (machine.store site value).stack.binding? other =
      if other = site then (machine.stack.binding? other).map (·.store value)
      else machine.stack.binding? other :=
  machine.stack.binding?_modifyVariable site other fun _ => rfl

/-! ## Sight -/

/-- How far a call sees. -/
structure Horizon where
  /-- The height of the frame of the call. -/
  floor : Nat
  /-- The variables of callers that may be used. -/
  Shared : Site → Prop

namespace Horizon

variable (horizon : Horizon)

/-- Frames that are seen as a whole. -/
def Open (height : Nat) : Prop :=
  horizon.floor ≤ height ∨ height = 0

/-- Variables that are seen. -/
def Sees (site : Site) : Prop :=
  horizon.Open site.frame ∨ horizon.Shared site

/-- The machine holds what is hidden as it was at the start. -/
structure Kept (start machine : Machine) : Prop where
  frames : ∀ height < horizon.floor, Option.Rel Frame.AlikeInPlace
    (start.stack.frame? height) (machine.stack.frame? height)
  hidden : ∀ site : Site, site.frame < horizon.floor → ¬ horizon.Sees site →
    machine.stack.binding? site = start.stack.binding? site

/-- Two machines agree on what is seen, and both hold what is hidden as it was at
the start. -/
structure Alongside (start start' machine machine' : Machine) : Prop where
  depth : machine'.depth = machine.depth
  lastValue : machine'.lastValue = machine.lastValue
  emitted : machine'.emitted = machine.emitted
  height : machine'.stack.height = machine.stack.height
  inside : horizon.floor ≤ machine.stack.height
  frames : ∀ height, horizon.Open height →
    machine'.stack.frame? height = machine.stack.frame? height
  shared : ∀ site : Site, site.frame < horizon.floor → horizon.Shared site →
    machine'.stack.binding? site = machine.stack.binding? site
  /-- What is seen refers to nothing that is hidden. -/
  references : ∀ height frame, horizon.Open height → machine.stack.frame? height = some frame →
    ∀ binding ∈ frame.bindings, ∀ site, binding.reference = some site → horizon.Sees site
  kept : horizon.Kept start machine
  kept' : horizon.Kept start' machine'

variable {horizon} {start start' machine machine' : Machine}

/-! ## What is read -/

namespace Alongside

variable (alongside : horizon.Alongside start start' machine machine')

include alongside

theorem current : machine'.current = machine.current := by
  have frames := alongside.frames machine.stack.height (.inl alongside.inside)
  rw [← alongside.height, CallStack.frame?_height, alongside.height, CallStack.frame?_height]
    at frames
  exact Option.some.inj frames

theorem globalFrame : machine'.stack.globalFrame = machine.stack.globalFrame := by
  have frames := alongside.frames 0 (.inr rfl)
  rw [CallStack.frame?_zero, CallStack.frame?_zero] at frames
  exact Option.some.inj frames

theorem binding? {site : Site} (sees : horizon.Sees site) :
    machine'.stack.binding? site = machine.stack.binding? site := by
  by_cases isOpen : horizon.Open site.frame
  · unfold CallStack.binding?
    rw [alongside.frames site.frame isOpen]
  · have below : site.frame < horizon.floor := Nat.lt_of_not_le fun above => isOpen (.inl above)
    exact alongside.shared site below (sees.resolve_left isOpen)

theorem find? (name : String) : machine'.stack.find? name = machine.stack.find? name := by
  have current : machine'.stack.current = machine.stack.current := alongside.current
  unfold CallStack.find?
  rw [current, alongside.globalFrame, alongside.height]

theorem open_of_find? {name : String} {site : Site}
    (found : machine.stack.find? name = some site) : horizon.Open site.frame := by
  unfold CallStack.find? at found
  split at found
  · cases found
    exact .inl alongside.inside
  · obtain ⟨scope, -, rfl⟩ := Option.map_eq_some_iff.mp found
    exact .inr rfl

theorem owner {site : Site} (isOpen : horizon.Open site.frame) :
    machine'.stack.owner site = machine.stack.owner site := by
  unfold CallStack.owner
  rw [alongside.binding? (.inl isOpen)]

theorem sees_owner {site : Site} (isOpen : horizon.Open site.frame) :
    horizon.Sees (machine.stack.owner site) := by
  unfold CallStack.owner
  cases found : machine.stack.binding? site with
  | none => exact .inl isOpen
  | some binding =>
      cases refers : binding.reference with
      | none => exact .inl (by simpa [refers] using isOpen)
      | some target =>
          obtain ⟨frame, frameFound, inFrame⟩ := Option.bind_eq_some_iff.mp found
          have member := Frame.mem_bindings_of_binding? inFrame
          have sees := alongside.references site.frame frame isOpen frameFound binding member
            target refers
          simpa [refers] using sees

theorem ownerOf? (name : String) : machine'.ownerOf? name = machine.ownerOf? name := by
  unfold Machine.ownerOf?
  rw [alongside.find? name]
  cases found : machine.stack.find? name with
  | none => rfl
  | some site =>
      have isOpen := alongside.open_of_find? found
      simp only [Option.bind_eq_bind, Option.bind_some, alongside.owner isOpen,
        alongside.binding? (alongside.sees_owner isOpen)]

theorem sees_of_ownerOf? {name : String} {site : Site} {binding : Variable}
    (found : machine.ownerOf? name = some (site, binding)) : horizon.Sees site := by
  unfold Machine.ownerOf? at found
  simp only [Option.bind_eq_bind, Option.bind_eq_some_iff] at found
  obtain ⟨named, namedFound, _, _, same⟩ := found
  cases same
  exact alongside.sees_owner (alongside.open_of_find? namedFound)

theorem valueOf (name : String) : machine'.valueOf name = machine.valueOf name := by
  unfold Machine.valueOf
  rw [alongside.ownerOf? name]

theorem argumentSite? (argument : Expression) :
    machine'.argumentSite? argument = machine.argumentSite? argument := by
  unfold Machine.argumentSite?
  cases argument.name? with
  | none => rfl
  | some name =>
      simp only [Option.bind_eq_bind, Option.bind_some]
      rw [alongside.find? name]
      cases found : machine.stack.find? name with
      | none => rfl
      | some site =>
          have isOpen := alongside.open_of_find? found
          simp only [Option.bind_some, alongside.binding? (.inl isOpen), alongside.owner isOpen]

theorem sees_of_argumentSite? {argument : Expression} {site : Site}
    (named : machine.argumentSite? argument = some site) : horizon.Sees site := by
  unfold Machine.argumentSite? at named
  simp only [Option.bind_eq_bind, Option.bind_eq_some_iff] at named
  obtain ⟨name, -, found, siteFound, binding, -, ending⟩ := named
  split at ending
  · cases ending
    exact alongside.sees_owner (alongside.open_of_find? siteFound)
  · cases ending

theorem resolve (name : String) (arity : Nat) :
    Evaluation.resolve machine' name arity = Evaluation.resolve machine name arity := by
  unfold Evaluation.resolve
  rw [alongside.globalFrame, alongside.current]

end Alongside

/-! ## What is changed -/

theorem Kept.of_below {after : Machine} (kept : horizon.Kept start machine)
    (below : ∀ height < horizon.floor,
      after.stack.frame? height = machine.stack.frame? height) :
    horizon.Kept start after := by
  constructor
  · intro height isBelow
    rw [below height isBelow]
    exact kept.frames height isBelow
  · intro site isBelow hidden
    rw [← kept.hidden site isBelow hidden]
    unfold CallStack.binding?
    rw [below site.frame isBelow]

/-- What is stored where it is seen leaves alone what is hidden. -/
theorem Kept.store (kept : horizon.Kept start machine) {site : Site} (sees : horizon.Sees site)
    (value : Value) : horizon.Kept start (machine.store site value) := by
  constructor
  · intro height isBelow
    have before := kept.frames height isBelow
    simp only [Machine.store, CallStack.frame?_modifyVariable]
    split
    · revert before
      generalize start.stack.frame? height = earlier
      generalize machine.stack.frame? height = later
      intro before
      cases before with
      | none => exact .none
      | some alike =>
          exact .some (alike.trans (.modifyVariable _ _ _ fun binding => .store binding value))
    · exact before
  · intro other isBelow hidden
    have different : other ≠ site := fun same => hidden (same ▸ sees)
    rw [Machine.binding?_store, if_neg different]
    exact kept.hidden other isBelow hidden

namespace Alongside

variable (alongside : horizon.Alongside start start' machine machine')

include alongside

/-- Frames from the floor on may be changed alike in both machines. -/
theorem of_below {after after' : Machine}
    (below : ∀ height < horizon.floor, after.stack.frame? height = machine.stack.frame? height)
    (below' : ∀ height < horizon.floor,
      after'.stack.frame? height = machine'.stack.frame? height)
    (depth : after'.depth = after.depth) (lastValue : after'.lastValue = after.lastValue)
    (emitted : after'.emitted = after.emitted)
    (height : after'.stack.height = after.stack.height)
    (inside : horizon.floor ≤ after.stack.height)
    (frames : ∀ height, horizon.floor ≤ height →
      after'.stack.frame? height = after.stack.frame? height)
    (references : ∀ height frame, horizon.floor ≤ height →
      after.stack.frame? height = some frame → ∀ binding ∈ frame.bindings,
        ∀ site, binding.reference = some site → horizon.Sees site) :
    horizon.Alongside start start' after after' where
  depth := depth
  lastValue := lastValue
  emitted := emitted
  height := height
  inside := inside
  frames height isOpen := by
    by_cases above : horizon.floor ≤ height
    · exact frames height above
    · rw [below height (by omega), below' height (by omega)]
      exact alongside.frames height isOpen
  shared site isBelow shared := by
    have before := alongside.shared site isBelow shared
    unfold CallStack.binding? at before ⊢
    rw [below site.frame isBelow, below' site.frame isBelow, before]
  references height frame isOpen found := by
    by_cases above : horizon.floor ≤ height
    · exact references height frame above found
    · rw [below height (by omega)] at found
      exact alongside.references height frame isOpen found
  kept := alongside.kept.of_below below
  kept' := alongside.kept'.of_below below'

/-- What is no part of the stack may be changed alike in both machines. -/
theorem of_stack {after after' : Machine} (stack : after.stack = machine.stack)
    (stack' : after'.stack = machine'.stack) (depth : after'.depth = after.depth)
    (lastValue : after'.lastValue = after.lastValue) (emitted : after'.emitted = after.emitted) :
    horizon.Alongside start start' after after' where
  depth := depth
  lastValue := lastValue
  emitted := emitted
  height := by
    rw [stack, stack']
    exact alongside.height
  inside := by
    rw [stack]
    exact alongside.inside
  frames := by
    rw [stack, stack']
    exact alongside.frames
  shared := by
    rw [stack, stack']
    exact alongside.shared
  references := by
    rw [stack]
    exact alongside.references
  kept := alongside.kept.of_below fun _ _ => by rw [stack]
  kept' := alongside.kept'.of_below fun _ _ => by rw [stack']

theorem modifyCurrent {change : Frame → Frame}
    (kept : Frame.NoNewReference machine.current (change machine.current)) :
    horizon.Alongside start start' (machine.modifyCurrent change)
      (machine'.modifyCurrent change) := by
  have inside := alongside.inside
  have current : machine'.stack.current = machine.stack.current := alongside.current
  have changed (height : Nat) : (machine.modifyCurrent change).stack.frame? height =
      if height = machine.stack.height then some (change machine.stack.current)
      else machine.stack.frame? height := CallStack.frame?_modifyCurrent _ _ _
  have changed' (height : Nat) : (machine'.modifyCurrent change).stack.frame? height =
      if height = machine.stack.height then some (change machine.stack.current)
      else machine'.stack.frame? height := by
    rw [← alongside.height, ← current]
    exact CallStack.frame?_modifyCurrent _ _ _
  refine alongside.of_below ?_ ?_ alongside.depth alongside.lastValue alongside.emitted
    alongside.height inside ?_ ?_
  · intro height below
    rw [changed, if_neg (by omega)]
  · intro height below
    rw [changed', if_neg (by omega)]
  · intro height above
    rw [changed, changed', alongside.frames height (.inl above)]
  · intro height frame above found
    rw [changed] at found
    split at found
    · cases found
      intro binding member site refers
      obtain ⟨earlier, earlierMember, same⟩ := kept binding member site refers
      exact alongside.references machine.stack.height _ (.inl inside)
        (CallStack.frame?_height _) earlier earlierMember site same
    · exact alongside.references height frame (.inl above) found

/-- A frame may be opened whose references can be seen. -/
theorem pushFrame {frame : Frame} (seen : ∀ binding ∈ frame.bindings,
      ∀ site, binding.reference = some site → horizon.Sees site) :
    horizon.Alongside start start' (machine.pushFrame frame) (machine'.pushFrame frame) := by
  have inside := alongside.inside
  have pushed (height : Nat) : (machine.pushFrame frame).stack.frame? height =
      if height = machine.stack.height + 1 then some frame else machine.stack.frame? height :=
    CallStack.frame?_push _ _ _
  have pushed' (height : Nat) : (machine'.pushFrame frame).stack.frame? height =
      if height = machine.stack.height + 1 then some frame else machine'.stack.frame? height := by
    rw [← alongside.height]
    exact CallStack.frame?_push _ _ _
  refine alongside.of_below ?_ ?_ alongside.depth alongside.lastValue alongside.emitted
    (congrArg (· + 1) alongside.height) (Nat.le_succ_of_le inside) ?_ ?_
  · intro height below
    rw [pushed, if_neg (by omega)]
  · intro height below
    rw [pushed', if_neg (by omega)]
  · intro height above
    rw [pushed, pushed', alongside.frames height (.inl above)]
  · intro height opened above found
    rw [pushed] at found
    split at found
    · cases found
      exact seen
    · exact alongside.references height opened (.inl above) found

/-- A frame above the floor may be closed. -/
theorem popFrame (above : horizon.floor < machine.stack.height) :
    horizon.Alongside start start' machine.popFrame machine'.popFrame := by
  have height : machine'.popFrame.stack.height = machine.popFrame.stack.height := by
    simp only [Machine.popFrame, CallStack.height_pop, alongside.height]
  have popped : machine.popFrame.stack.height = machine.stack.height - 1 :=
    CallStack.height_pop _
  have same {lower : Nat} (below : lower < machine.stack.height) :
      machine.popFrame.stack.frame? lower = machine.stack.frame? lower :=
    CallStack.frame?_pop _ below
  have same' {lower : Nat} (below : lower < machine.stack.height) :
      machine'.popFrame.stack.frame? lower = machine'.stack.frame? lower :=
    CallStack.frame?_pop _ (alongside.height ▸ below)
  have gone {higher : Nat} (outside : ¬ higher < machine.stack.height) :
      machine.popFrame.stack.frame? higher = none :=
    CallStack.frame?_eq_none _ (by omega)
  refine alongside.of_below (fun lower below => same (by omega))
    (fun lower below => same' (by omega)) alongside.depth alongside.lastValue alongside.emitted
    height (by omega) ?_ ?_
  · intro other isAbove
    by_cases below : other < machine.stack.height
    · rw [same below, same' below, alongside.frames other (.inl isAbove)]
    · rw [gone below]
      exact CallStack.frame?_eq_none _ (by omega)
  · intro other frame isAbove found
    by_cases below : other < machine.stack.height
    · rw [same below] at found
      exact alongside.references other frame (.inl isAbove) found
    · rw [gone below] at found
      cases found

/-- A value may be stored where it is seen. -/
theorem store {site : Site} (sees : horizon.Sees site) (value : Value) :
    horizon.Alongside start start' (machine.store site value) (machine'.store site value) where
  depth := alongside.depth
  lastValue := alongside.lastValue
  emitted := alongside.emitted
  height := by
    simp only [Machine.store, CallStack.height_modifyVariable, alongside.height]
  inside := by
    simp only [Machine.store, CallStack.height_modifyVariable, alongside.inside]
  frames height isOpen := by
    simp only [Machine.store, CallStack.frame?_modifyVariable, alongside.frames height isOpen]
  shared other isBelow shared := by
    rw [Machine.binding?_store, Machine.binding?_store, alongside.shared other isBelow shared]
  references height frame isOpen found binding member target refers := by
    simp only [Machine.store, CallStack.frame?_modifyVariable] at found
    split at found
    · obtain ⟨earlierFrame, earlierFound, rfl⟩ := Option.map_eq_some_iff.mp found
      have alike : earlierFrame.Alike
          (earlierFrame.modifyVariable site.scope site.name (·.store value)) :=
        .modifyVariable _ _ _ fun binding => .store binding value
      obtain ⟨earlier, earlierMember, same⟩ := alike.exists_reference member
      exact alongside.references height earlierFrame isOpen earlierFound earlier earlierMember
        target (same.trans refers)
    · exact alongside.references height frame isOpen found binding member target refers
  kept := alongside.kept.store sees value
  kept' := alongside.kept'.store sees value

end Alongside

end Horizon

end Plainspoken
