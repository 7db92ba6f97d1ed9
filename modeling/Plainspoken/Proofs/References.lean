import Plainspoken.Proofs.Extension

/-!
# References

A parameter may refer to a variable of a caller.  References are live if each
leads to a frame below the one that holds it, and there to a variable that owns
its storage and may be assigned: one step always suffices to find where a value
is stored.

Live references survive whatever is done to the current frame, since nothing
refers to it yet, as long as it gets no new ones.
-/

namespace Plainspoken

open List (Forall₂)

/-! ## Elements by height -/

namespace Height

variable {α : Type}

theorem get?_cons (top : α) (stack : List α) (height : Nat) :
    get? (top :: stack) height =
      if height = stack.length then some top else get? stack height := by
  by_cases atTop : height = stack.length
  · subst atTop
    simp
  · rw [if_neg atTop]
    by_cases below : height < stack.length
    · exact get?_cons_of_lt below
    · have above : ¬ height < (top :: stack).length := by
        simp only [List.length_cons]
        omega
      simp only [get?, if_neg above, if_neg below]

theorem lt_of_get?_eq_some {stack : List α} {height : Nat} {element : α}
    (found : get? stack height = some element) : height < stack.length := by
  unfold get? at found
  by_contra outside
  rw [if_neg outside] at found
  cases found

theorem mem_of_get?_eq_some {stack : List α} {height : Nat} {element : α}
    (found : get? stack height = some element) : element ∈ stack := by
  have within := lt_of_get?_eq_some found
  rw [get?, if_pos within] at found
  exact List.mem_of_getElem? found

end Height

theorem CallStack.frame?_eq (stack : CallStack) (height : Nat) :
    stack.frame? height = Height.get? stack.frames height := by
  rw [CallStack.frames, Height.get?_cons]
  rfl

/-- The frame of the program is the lowest one. -/
theorem CallStack.frame?_zero (stack : CallStack) :
    stack.frame? 0 = some stack.globalFrame := by
  obtain ⟨current, callers⟩ := stack
  rw [CallStack.frame?_eq]
  unfold CallStack.globalFrame CallStack.frames
  induction callers generalizing current with
  | nil => rfl
  | cons caller callers ih =>
      rw [Height.get?_cons, if_neg (by simp), ih caller, List.getLastD_cons]

/-! ## Names that are found -/

namespace Frame

def bindings (frame : Frame) : List Variable :=
  frame.scopes.flatMap Scope.bindings

theorem mem_bindings_of_binding? {frame : Frame} {height : Nat} {name : String}
    {binding : Variable} (found : frame.binding? height name = some binding) :
    binding ∈ frame.bindings := by
  unfold Frame.binding? at found
  obtain ⟨scope, scopeFound, bindingFound⟩ := Option.bind_eq_some_iff.mp found
  exact List.mem_flatMap.mpr
    ⟨scope, Height.mem_of_get?_eq_some scopeFound, List.mem_of_find?_eq_some bindingFound⟩

theorem isSome_binding?_of_findIn {name : String} {scopes : List Scope} {height : Nat}
    (found : findIn name scopes = some height) :
    ((Height.get? scopes height).bind (·.binding? name)).isSome = true := by
  induction scopes with
  | nil => cases found
  | cons scope outer ih =>
      rw [findIn] at found
      rw [Height.get?_cons]
      split at found
      · next here =>
        cases found
        simpa using here
      · have foundOutside := ih found
        have below : height ≠ outer.length := by
          intro atTop
          rw [atTop] at foundOutside
          simp [Height.get?] at foundOutside
        rw [if_neg below]
        exact foundOutside

theorem isSome_binding?_of_find? {frame : Frame} {name : String} {height : Nat}
    (found : frame.find? name = some height) : (frame.binding? height name).isSome = true :=
  isSome_binding?_of_findIn found

end Frame

/-- Where a name is found there is a variable. -/
theorem CallStack.isSome_binding?_of_find? {stack : CallStack} {name : String} {site : Site}
    (found : stack.find? name = some site) : (stack.binding? site).isSome = true := by
  unfold CallStack.find? at found
  split at found
  · next scope here =>
    cases found
    simpa [CallStack.binding?, CallStack.frame?] using Frame.isSome_binding?_of_find? here
  · obtain ⟨scope, here, rfl⟩ := Option.map_eq_some_iff.mp found
    simpa [CallStack.binding?, CallStack.frame?_zero] using Frame.isSome_binding?_of_find? here

/-! ## Live references -/

/-- Among the frames there is, at the site, a variable that owns its storage
and may be assigned. -/
def Owned (frames : List Frame) (site : Site) : Prop :=
  ∃ frame target, Height.get? frames site.frame = some frame ∧
    frame.binding? site.scope site.name = some target ∧
    target.reference = none ∧ target.declarator.isMutable = true

/-- Every reference of a frame leads to a variable of its callers that owns its
storage. -/
def ReferencesLive : List Frame → Prop
  | [] => True
  | frame :: callers =>
      (∀ binding ∈ frame.bindings, ∀ site, binding.reference = some site →
        Owned callers site) ∧ ReferencesLive callers

namespace Owned

private theorem frame_lt {frames : List Frame} {site : Site} (owned : Owned frames site) :
    site.frame < frames.length := by
  obtain ⟨_, _, found, _⟩ := owned
  exact Height.lt_of_get?_eq_some found

theorem cons {frames : List Frame} {site : Site} (owned : Owned frames site) (frame : Frame) :
    Owned (frame :: frames) site := by
  have below := owned.frame_lt
  obtain ⟨owner, target, found, rest⟩ := owned
  exact ⟨owner, target, (Height.get?_cons_of_lt below).trans found, rest⟩

/-- Sites stay owned while nothing but values changes. -/
theorem of_alike {before after : List Frame} (alike : Forall₂ Frame.Alike before after)
    {site : Site} (owned : Owned before site) : Owned after site := by
  obtain ⟨frame, target, frameFound, targetFound, owns, assignable⟩ := owned
  have frames := Height.get?_forall₂ alike site.frame
  rw [frameFound] at frames
  cases frameFound' : Height.get? after site.frame with
  | none =>
      rw [frameFound'] at frames
      cases frames
  | some frame' =>
      rw [frameFound'] at frames
      cases frames with
      | some frameAlike =>
          have targets := frameAlike.binding? site.scope site.name
          rw [targetFound] at targets
          cases targetFound' : frame'.binding? site.scope site.name with
          | none =>
              rw [targetFound'] at targets
              cases targets
          | some target' =>
              rw [targetFound'] at targets
              cases targets with
              | some targetAlike =>
                  refine ⟨frame', target', frameFound', targetFound', ?_, ?_⟩
                  · rw [targetAlike.reference, owns]
                  · rw [targetAlike.declarator, assignable]

end Owned

namespace Frame

/-- Frames that are alike hold the same references. -/
theorem Alike.exists_reference {before after : Frame} (alike : before.Alike after)
    {binding : Variable} (member : binding ∈ after.bindings) :
    ∃ earlier ∈ before.bindings, earlier.reference = binding.reference := by
  obtain ⟨scope, scopeMember, bindingMember⟩ := List.mem_flatMap.mp member
  obtain ⟨earlierScope, earlierScopeMember, scopeAlike⟩ :=
    exists_mem_of_forall₂ alike.scopes scopeMember
  obtain ⟨earlier, earlierMember, bindingAlike⟩ :=
    exists_mem_of_forall₂ scopeAlike.bindings bindingMember
  exact ⟨earlier, List.mem_flatMap.mpr ⟨earlierScope, earlierScopeMember, earlierMember⟩,
    bindingAlike.reference.symm⟩

/-! ## Operations on the current frame -/

variable (frame : Frame)

/-- A frame got no reference that it did not have. -/
def NoNewReference (before after : Frame) : Prop :=
  ∀ binding ∈ after.bindings, ∀ site, binding.reference = some site →
    ∃ earlier ∈ before.bindings, earlier.reference = some site

theorem NoNewReference.of_subset {before after : Frame}
    (subset : after.bindings ⊆ before.bindings) : NoNewReference before after :=
  fun binding member _ refers => ⟨binding, subset member, refers⟩

theorem NoNewReference.of_eq {before after : Frame}
    (same : after.bindings = before.bindings) : NoNewReference before after :=
  of_subset fun _ member => same ▸ member

theorem NoNewReference.pushScope {scope : Scope}
    (unreferring : ∀ binding ∈ scope.bindings, binding.reference = none) :
    NoNewReference frame (frame.pushScope scope) := by
  intro binding member site refers
  simp only [bindings, Frame.pushScope, List.flatMap_cons, List.mem_append] at member
  rcases member with inner | outer
  · rw [unreferring binding inner] at refers
    cases refers
  · exact ⟨binding, outer, refers⟩

theorem NoNewReference.popScope : NoNewReference frame frame.popScope := by
  apply of_subset
  intro binding member
  obtain ⟨scope, scopeMember, bindingMember⟩ := List.mem_flatMap.mp member
  exact List.mem_flatMap.mpr ⟨scope, List.mem_of_mem_tail scopeMember, bindingMember⟩

theorem bindings_modifyInnermost {change : Scope → Scope}
    (kept : ∀ scope : Scope, (change scope).bindings = scope.bindings) :
    (frame.modifyInnermost change).bindings = frame.bindings := by
  unfold bindings Frame.modifyInnermost
  cases frame.scopes with
  | nil => rfl
  | cons inner outer => simp [kept]

theorem NoNewReference.setFlags (flags : Flags) :
    NoNewReference frame (frame.setFlags flags) := by
  have same : (frame.setFlags flags).bindings = frame.bindings :=
    bindings_modifyInnermost frame fun _ => rfl
  exact of_eq same

theorem NoNewReference.unsetFlags (flags : Flags) :
    NoNewReference frame (frame.unsetFlags flags) := by
  have same : (frame.unsetFlags flags).bindings = frame.bindings :=
    bindings_modifyInnermost frame fun _ => rfl
  exact of_eq same

theorem eq_or_mem_of_mem_insertVariable {binding inserted : Variable}
    (member : binding ∈ (frame.insertVariable inserted).bindings) :
    binding = inserted ∨ binding ∈ frame.bindings := by
  unfold bindings Frame.insertVariable Frame.modifyInnermost at member
  unfold bindings
  cases scopes : frame.scopes with
  | nil =>
      rw [scopes] at member
      cases member
  | cons inner outer =>
      simp only [scopes, List.modifyHead_cons, List.flatMap_cons, List.mem_append,
        Scope.insertVariable, List.mem_cons, List.mem_filter] at member ⊢
      rcases member with (isInserted | ⟨wasThere, _⟩) | outside
      · exact .inl isInserted
      · exact .inr (.inl wasThere)
      · exact .inr (.inr outside)

theorem NoNewReference.declareVariable {after : Frame} {binding : Variable}
    (declared : frame.declareVariable binding = .ok after)
    (unreferring : binding.reference = none) : NoNewReference frame after := by
  unfold Frame.declareVariable at declared
  split at declared
  · cases declared
  · cases declared
    intro other member site refers
    rcases eq_or_mem_of_mem_insertVariable frame member with rfl | wasThere
    · rw [unreferring] at refers
      cases refers
    · exact ⟨other, wasThere, refers⟩

theorem flatMap_bindings_completeIn (declared : Callable) (scopes : List Scope) :
    (completeIn declared scopes).scopes.flatMap Scope.bindings =
      scopes.flatMap Scope.bindings := by
  induction scopes with
  | nil => rfl
  | cons scope outer ih =>
      simp only [completeIn]
      split
      · simp [ih]
      · simp [ih]
      · split
        · simp [ih]
        · split <;> simp [ih, Scope.insertEntry]

theorem NoNewReference.declareCallable (declared : Callable) :
    NoNewReference frame (frame.declareCallable declared).2 := by
  apply of_eq
  have checked : ({ frame with scopes := (completeIn declared frame.scopes).scopes } :
      Frame).bindings = frame.bindings :=
    flatMap_bindings_completeIn declared frame.scopes
  simp only [Frame.declareCallable]
  split
  · exact checked
  · split
    · split
      · exact checked
      · exact checked
    · rw [← checked]
      exact bindings_modifyInnermost _ fun scope : Scope =>
        show (scope.insertEntry ⟨declared, none⟩).bindings = scope.bindings from rfl

end Frame

/-! ## Operations on the machine -/

namespace ReferencesLive

theorem of_alike {before after : List Frame} (alike : Forall₂ Frame.Alike before after)
    (live : ReferencesLive before) : ReferencesLive after := by
  induction alike with
  | nil => trivial
  | cons frameAlike callersAlike ih =>
      refine ⟨?_, ih live.2⟩
      intro binding member site refers
      obtain ⟨earlier, earlierMember, same⟩ := frameAlike.exists_reference member
      exact (live.1 earlier earlierMember site (same.trans refers)).of_alike callersAlike

theorem current {before after : Frame} {callers : List Frame}
    (kept : Frame.NoNewReference before after) (live : ReferencesLive (before :: callers)) :
    ReferencesLive (after :: callers) := by
  refine ⟨?_, live.2⟩
  intro binding member site refers
  obtain ⟨earlier, earlierMember, same⟩ := kept binding member site refers
  exact live.1 earlier earlierMember site same

/-- A reference anywhere on the stack leads below the frame that holds it. -/
theorem owned_of_get? {frames : List Frame} (live : ReferencesLive frames) {height : Nat}
    {frame : Frame} (found : Height.get? frames height = some frame) {binding : Variable}
    (member : binding ∈ frame.bindings) {site : Site} (refers : binding.reference = some site) :
    site.frame < height ∧ Owned frames site := by
  induction frames with
  | nil => simp at found
  | cons top callers ih =>
      rw [Height.get?_cons] at found
      split at found
      · next atTop =>
        cases found
        have owned := live.1 binding member site refers
        exact ⟨atTop ▸ owned.frame_lt, owned.cons _⟩
      · obtain ⟨below, owned⟩ := ih live.2 found
        exact ⟨below, owned.cons top⟩

end ReferencesLive

end Plainspoken
