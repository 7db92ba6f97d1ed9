import Mathlib.Data.List.Forall2
import Plainspoken.Evaluation.Access

/-!
# Stacks that differ in values only

Evaluating an expression may store values, and nothing else of a stack changes
for good.  Two variables are alike if they differ in what they hold at most;
two scopes, frames or stacks are alike if they have the same shape and their
variables are alike.  Whatever does not read a value sees no difference between
stacks that are alike: names are found at the same sites, with the same owners.
-/

namespace Plainspoken

open List (Forall₂)

section Lists

variable {α β : Type} {related : α → α → Prop}

theorem forall₂_trans {first second third : List α}
    (firstSecond : Forall₂ related first second)
    (secondThird : Forall₂ related second third)
    (transitive : ∀ {first second third : α},
      related first second → related second third → related first third) :
    Forall₂ related first third := by
  induction firstSecond generalizing third with
  | nil =>
      cases secondThird
      exact .nil
  | cons headRelated tailRelated ih =>
      cases secondThird with
      | cons headRelated' tailRelated' =>
          exact .cons (transitive headRelated headRelated') (ih tailRelated')

theorem exists_mem_of_forall₂ {firsts seconds : List α} (lists : Forall₂ related firsts seconds)
    {second : α} (member : second ∈ seconds) : ∃ first ∈ firsts, related first second := by
  induction lists with
  | nil => cases member
  | cons headRelated _ ih =>
      rcases List.mem_cons.mp member with rfl | later
      · exact ⟨_, .head _, headRelated⟩
      · obtain ⟨first, firstMember, firstRelated⟩ := ih later
        exact ⟨first, .tail _ firstMember, firstRelated⟩

/-- Lists that are related element by element are searched alike. -/
theorem forall₂_find? {sought : α → Bool}
    (agreed : ∀ first second, related first second → sought second = sought first)
    {firsts seconds : List α} (lists : Forall₂ related firsts seconds) :
    Option.Rel related (firsts.find? sought) (seconds.find? sought) := by
  induction lists with
  | nil => exact .none
  | @cons first second _ _ headRelated _ ih =>
      have same := agreed first second headRelated
      cases found : sought first with
      | true =>
          rw [found] at same
          simpa [found, same] using Option.Rel.some headRelated
      | false =>
          rw [found] at same
          simpa [found, same] using ih

theorem optionRel_bind {next next' : α → Option β} {relatedAfter : β → β → Prop}
    {first second : Option α} (options : Option.Rel related first second)
    (continued : ∀ {before after : α}, related before after →
      Option.Rel relatedAfter (next before) (next' after)) :
    Option.Rel relatedAfter (first.bind next) (second.bind next') := by
  cases options with
  | none => exact .none
  | some elements => exact continued elements

theorem isSome_of_optionRel {first second : Option α}
    (options : Option.Rel related first second) : second.isSome = first.isSome := by
  cases options <;> rfl

namespace Height

/-- Elements of the same height are related. -/
theorem get?_forall₂ {firsts seconds : List α} (lists : Forall₂ related firsts seconds)
    (height : Nat) :
    Option.Rel related (get? firsts height) (get? seconds height) := by
  have sameLength := lists.length_eq
  unfold get?
  rw [← sameLength]
  by_cases within : height < firsts.length
  · rw [if_pos within, if_pos within]
    have firstBound : firsts.length - 1 - height < firsts.length := by omega
    have secondBound : firsts.length - 1 - height < seconds.length := by omega
    rw [List.getElem?_eq_getElem firstBound, List.getElem?_eq_getElem secondBound]
    exact .some (lists.get firstBound secondBound)
  · rw [if_neg within, if_neg within]
    exact .none

theorem forall₂_listModify (reflexive : ∀ element, related element element)
    {change : α → α} (changed : ∀ element, related element (change element))
    (stack : List α) (position : Nat) :
    Forall₂ related stack (stack.modify position change) := by
  induction stack generalizing position with
  | nil => simp
  | cons top stack ih =>
      cases position with
      | zero =>
          simp only [List.modify_zero_cons]
          exact .cons (changed top) (List.forall₂_same.mpr fun element _ => reflexive element)
      | succ position =>
          simp only [List.modify_succ_cons]
          exact .cons (reflexive top) (ih position)

/-- Changing one element relates every element to what has become of it. -/
theorem forall₂_modify (reflexive : ∀ element, related element element)
    {change : α → α} (changed : ∀ element, related element (change element))
    (stack : List α) (height : Nat) :
    Forall₂ related stack (modify stack height change) := by
  unfold modify
  split
  · exact forall₂_listModify reflexive changed stack _
  · exact List.forall₂_same.mpr fun element _ => reflexive element

end Height

end Lists

/-! ## Variables and scopes -/

/-- Two variables that differ in what they hold at most. -/
structure Variable.Alike (before after : Variable) : Prop where
  declarator : after.declarator = before.declarator
  reference : after.reference = before.reference

namespace Variable.Alike

theorem refl (binding : Variable) : binding.Alike binding :=
  ⟨rfl, rfl⟩

theorem trans {first second third : Variable} (firstSecond : first.Alike second)
    (secondThird : second.Alike third) : first.Alike third :=
  ⟨secondThird.declarator.trans firstSecond.declarator,
    secondThird.reference.trans firstSecond.reference⟩

theorem name_eq {before after : Variable} (alike : before.Alike after) :
    after.name = before.name :=
  congrArg Declarator.name alike.declarator

theorem store (binding : Variable) (value : Value) : binding.Alike (binding.store value) :=
  ⟨rfl, rfl⟩

end Variable.Alike

/-- Two scopes that differ in what their variables hold at most. -/
structure Scope.Alike (before after : Scope) : Prop where
  flags : after.flags = before.flags
  entries : after.entries = before.entries
  bindings : Forall₂ Variable.Alike before.bindings after.bindings

namespace Scope.Alike

theorem refl (scope : Scope) : scope.Alike scope :=
  ⟨rfl, rfl, List.forall₂_same.mpr fun binding _ => .refl binding⟩

theorem trans {first second third : Scope} (firstSecond : first.Alike second)
    (secondThird : second.Alike third) : first.Alike third :=
  ⟨secondThird.flags.trans firstSecond.flags,
    secondThird.entries.trans firstSecond.entries,
    forall₂_trans firstSecond.bindings secondThird.bindings Variable.Alike.trans⟩

theorem binding? {before after : Scope} (alike : before.Alike after) (name : String) :
    Option.Rel Variable.Alike (before.binding? name) (after.binding? name) := by
  apply forall₂_find? _ alike.bindings
  intro first second related
  rw [related.name_eq]

theorem modifyVariable (scope : Scope) (name : String) {change : Variable → Variable}
    (changed : ∀ binding : Variable, binding.Alike (change binding)) :
    scope.Alike (scope.modifyVariable name change) := by
  refine ⟨rfl, rfl, ?_⟩
  simp only [Scope.modifyVariable, List.forall₂_map_right_iff]
  apply List.forall₂_same.mpr
  intro binding _
  split
  · exact changed binding
  · exact .refl binding

end Scope.Alike

/-! ## Frames -/

/-- Two frames that differ in what their variables hold, and in the place they
have reached, at most. -/
structure Frame.Alike (before after : Frame) : Prop where
  name : after.name = before.name
  returns : after.returns = before.returns
  scopes : Forall₂ Scope.Alike before.scopes after.scopes

/-- Two frames at the same place that differ in what their variables hold at
most. -/
structure Frame.AlikeInPlace (before after : Frame) : Prop extends before.Alike after where
  span : after.span = before.span

namespace Frame.Alike

theorem refl (frame : Frame) : frame.Alike frame :=
  ⟨rfl, rfl, List.forall₂_same.mpr fun scope _ => .refl scope⟩

theorem trans {first second third : Frame} (firstSecond : first.Alike second)
    (secondThird : second.Alike third) : first.Alike third :=
  ⟨secondThird.name.trans firstSecond.name,
    secondThird.returns.trans firstSecond.returns,
    forall₂_trans firstSecond.scopes secondThird.scopes Scope.Alike.trans⟩

theorem binding? {before after : Frame} (alike : before.Alike after) (height : Nat)
    (name : String) :
    Option.Rel Variable.Alike (before.binding? height name) (after.binding? height name) :=
  optionRel_bind (Height.get?_forall₂ alike.scopes height) fun scopes => scopes.binding? name

theorem findIn {name : String} {before after : List Scope}
    (alike : Forall₂ Scope.Alike before after) :
    Frame.findIn name after = Frame.findIn name before := by
  induction alike with
  | nil => rfl
  | cons headAlike tailAlike ih =>
      have sameLength := tailAlike.length_eq
      have sameFound := isSome_of_optionRel (headAlike.binding? name)
      simp only [Frame.findIn, sameFound, sameLength, ih]

theorem find? {before after : Frame} (alike : before.Alike after) (name : String) :
    after.find? name = before.find? name :=
  findIn alike.scopes

theorem modifyVariable (frame : Frame) (height : Nat) (name : String)
    {change : Variable → Variable} (changed : ∀ binding : Variable, binding.Alike (change binding)) :
    frame.Alike (frame.modifyVariable height name change) :=
  ⟨rfl, rfl, Height.forall₂_modify Scope.Alike.refl
    (fun scope => .modifyVariable scope name changed) frame.scopes height⟩

end Frame.Alike

namespace Frame.AlikeInPlace

theorem refl (frame : Frame) : frame.AlikeInPlace frame :=
  ⟨.refl frame, rfl⟩

theorem trans {first second third : Frame} (firstSecond : first.AlikeInPlace second)
    (secondThird : second.AlikeInPlace third) : first.AlikeInPlace third :=
  ⟨firstSecond.toAlike.trans secondThird.toAlike, secondThird.span.trans firstSecond.span⟩

theorem modifyVariable (frame : Frame) (height : Nat) (name : String)
    {change : Variable → Variable} (changed : ∀ binding : Variable, binding.Alike (change binding)) :
    frame.AlikeInPlace (frame.modifyVariable height name change) :=
  ⟨.modifyVariable frame height name changed, rfl⟩

end Frame.AlikeInPlace

/-! ## Stacks -/

/-- Two stacks that differ in what their variables hold, and in the place that
the current frame has reached, at most. -/
structure CallStack.Alike (before after : CallStack) : Prop where
  current : before.current.Alike after.current
  callers : Forall₂ Frame.AlikeInPlace before.callers after.callers

namespace CallStack.Alike

variable {before after : CallStack}

theorem refl (stack : CallStack) : stack.Alike stack :=
  ⟨.refl stack.current, List.forall₂_same.mpr fun frame _ => .refl frame⟩

theorem trans {first second third : CallStack} (firstSecond : first.Alike second)
    (secondThird : second.Alike third) : first.Alike third :=
  ⟨firstSecond.current.trans secondThird.current,
    forall₂_trans firstSecond.callers secondThird.callers Frame.AlikeInPlace.trans⟩

theorem height_eq (alike : before.Alike after) : after.height = before.height :=
  alike.callers.length_eq.symm

theorem frames (alike : before.Alike after) :
    Forall₂ Frame.Alike before.frames after.frames :=
  .cons alike.current (alike.callers.imp fun _ _ => Frame.AlikeInPlace.toAlike)

theorem globalFrame (alike : before.Alike after) :
    before.globalFrame.Alike after.globalFrame := by
  have lasts : ∀ {firsts seconds : List Frame} {first second : Frame},
      Forall₂ Frame.AlikeInPlace firsts seconds → first.Alike second →
        (firsts.getLastD first).Alike (seconds.getLastD second) := by
    intro firsts seconds first second related
    induction related generalizing first second with
    | nil => exact id
    | cons headAlike _ ih =>
        intro _
        simp only [List.getLastD_cons]
        exact ih headAlike.toAlike
  exact lasts alike.callers alike.current

theorem frame? (alike : before.Alike after) (height : Nat) :
    Option.Rel Frame.Alike (before.frame? height) (after.frame? height) := by
  unfold CallStack.frame?
  rw [alike.height_eq]
  split
  · exact .some alike.current
  · exact Height.get?_forall₂ (alike.callers.imp fun _ _ => Frame.AlikeInPlace.toAlike) height

theorem binding? (alike : before.Alike after) (site : Site) :
    Option.Rel Variable.Alike (before.binding? site) (after.binding? site) :=
  optionRel_bind (alike.frame? site.frame) fun frames => frames.binding? site.scope site.name

/-- A name is found at the same site in both stacks. -/
theorem find? (alike : before.Alike after) (name : String) :
    after.find? name = before.find? name := by
  unfold CallStack.find?
  rw [alike.current.find?, alike.globalFrame.find?, alike.height_eq]

/-- A site has the same owner in both stacks. -/
theorem owner (alike : before.Alike after) (site : Site) :
    after.owner site = before.owner site := by
  have bindings := alike.binding? site
  unfold CallStack.owner
  revert bindings
  generalize before.binding? site = first
  generalize after.binding? site = second
  intro bindings
  cases bindings with
  | none => rfl
  | some related => simp [related.reference]

theorem modifyVariable (stack : CallStack) (site : Site) {change : Variable → Variable}
    (changed : ∀ binding : Variable, binding.Alike (change binding)) :
    stack.Alike (stack.modifyVariable site change) := by
  unfold CallStack.modifyVariable
  split
  · exact ⟨.modifyVariable stack.current site.scope site.name changed,
      (CallStack.Alike.refl stack).callers⟩
  · exact ⟨.refl stack.current, Height.forall₂_modify Frame.AlikeInPlace.refl
      (fun frame => .modifyVariable frame site.scope site.name changed) stack.callers site.frame⟩

theorem store (machine : Machine) (site : Site) (value : Value) :
    machine.stack.Alike (machine.store site value).stack :=
  .modifyVariable machine.stack site fun binding => .store binding value

end CallStack.Alike

end Plainspoken
