import Mathlib.Data.List.TakeWhile
import Plainspoken.Proofs.ExpressionRules
import Plainspoken.Proofs.Judgements
import Plainspoken.Proofs.Stepwise

/-!
# What becomes of a bound subject

A pipe binds the value that it carries, and a match or a pattern the value that it is
about, under a reserved name.  No assignment names such a variable.  But what a pipe binds
may be passed to a parameter that is assigned, and then an assignment to the parameter
stores its value in the variable of the pipe.

Each machine that an evaluation passes comes from the one before it by one step, and among
all steps only an assignment changes what is held at a site that is there before and
after.  So from the moment at which a subject is bound until its scope is closed it stays
as it is, but for assignments to names that lead to a reference to it.
-/

namespace Plainspoken

open Stepping Evaluation

/-! ## One step after the other -/

/-- The steps of an evaluation. -/
inductive Machine.Steps (machine : Machine) : Machine → Prop where
  | adjusted {after : Machine} (adjusts : machine.Adjusts after) : Steps machine after
  | scopeOpened {scope : Scope} (opened : scope.Opened) : Steps machine (machine.pushScope scope)
  | scopeClosed : Steps machine machine.popScope
  | frameOpened {frame : Frame} (opened : frame.Opened) : Steps machine (machine.pushFrame frame)
  | frameClosed : Steps machine machine.popFrame

open Tracing in
/-- That one step follows the other is a judgement. -/
def Tracing.Judgement.proceeding : Judgement where
  Holds traced machine := traced.Proceeds Machine.Steps machine
  pure result _ := .pure result
  read view _ := .read view
  halt reason _ := .halt reason
  exhaust _ := .exhaust
  bindAt := .bind
  updateAt adjusts := .update (.adjusted adjusts)
  andFinallyAt proceeds adjusts := proceeds.andFinally fun after => .adjusted (adjusts after)
  inScopeAt opened runs := by
    refine .bind (.update (.scopeOpened opened)) fun _ _ updates => ?_
    cases updates
    exact runs.andFinally fun _ => .scopeClosed
  inFrameAt opened result runs := by
    refine .bind (.update (.frameOpened opened)) fun _ _ updates => ?_
    cases updates
    exact .bind runs fun _ _ _ => .bind (.update .frameClosed) fun _ _ _ => .pure _

theorem execute_proceeds (maxDepth fuel : Nat) (statement : Statement) (machine : Machine) :
    (execute maxDepth fuel statement : Tracing Flow).Proceeds Machine.Steps machine :=
  (Tracing.Judgement.proceeding.evaluation maxDepth fuel).2.1 statement machine

/-! ## What a step does to a variable -/

/-- An assignment to the name stores its value at the site, to which the variable of the
name refers. -/
def Machine.LeadsTo (machine : Machine) (name : String) (site : Site) : Prop :=
  isReservedName name = false ∧
    ∃ parameter binding, machine.stack.find? name = some parameter ∧
      machine.stack.binding? parameter = some binding ∧ binding.reference = some site

namespace Machine

variable {machine next : Machine} {site : Site} {binding : Variable}

/-- Where a reserved name is bound, values are stored by way of a reference only. -/
theorem Assigns.exists_leadsTo (assigns : machine.Assigns site binding)
    (reserved : isReservedName site.name = true) : ∃ name, machine.LeadsTo name site := by
  obtain ⟨name, declared, free, named, owns⟩ := assigns.named
  obtain ⟨parameter, found⟩ :=
    Option.isSome_iff_exists.mp (CallStack.isSome_binding?_of_find? named)
  refine ⟨name, free, declared, parameter, named, found, ?_⟩
  cases refers : parameter.reference with
  | none =>
      rw [CallStack.owner_eq_self found refers] at owns
      rw [← owns, CallStack.name_eq_of_find? named, free] at reserved
      cases reserved
  | some target =>
      rw [CallStack.owner, found, Option.bind_some, refers, Option.getD_some] at owns
      rw [owns]

/-- Of all changes only an assignment touches a variable that is there. -/
theorem Adjusts.assigns_or_keeps (adjusts : machine.Adjusts next)
    (found : machine.stack.binding? site = some binding) :
    next.stack.binding? site = machine.stack.binding? site ∨
      machine.Assigns site binding ∧
        ∃ value : Value, next = machine.store site (value.cast binding.declarator.type) := by
  cases adjusts with
  | noted depth lastValue emitted => exact .inl rfl
  | marked span => exact .inl (binding?_modifyCurrent_eq rfl)
  | flagsSet flags => exact .inl (binding?_modifyInnermost fun _ => rfl)
  | flagsUnset flags => exact .inl (binding?_modifyInnermost fun _ => rfl)
  | @stored other stored assigns value =>
      by_cases same : site = other
      · subst same
        obtain rfl : stored = binding := Option.some.inj (assigns.found.symm.trans found)
        exact .inr ⟨assigns, value, rfl⟩
      · left
        rw [binding?_store, if_neg same]
  | variableDeclared fresh declares => exact .inl (binding?_declareVariable declares found)
  | callableDeclared free => exact .inl (binding?_declareCallable _)

theorem Steps.assigns_or_keeps (steps : machine.Steps next)
    (found : machine.stack.binding? site = some binding)
    (lives : (next.stack.binding? site).isSome = true) :
    next.stack.binding? site = machine.stack.binding? site ∨
      machine.Assigns site binding ∧
        ∃ value : Value, next = machine.store site (value.cast binding.declarator.type) := by
  cases steps with
  | adjusted adjusts => exact adjusts.assigns_or_keeps found
  | scopeOpened opened => exact .inl ((binding?_pushScope found _).trans found.symm)
  | scopeClosed => exact .inl (binding?_popScope_of_isSome lives)
  | frameOpened opened => exact .inl ((binding?_pushFrame found _).trans found.symm)
  | frameClosed => exact .inl (binding?_popFrame_of_isSome lives)

/-! ## Rows of machines on which a variable is there -/

/-- What assignments respect holds of a variable as long as it is there. -/
theorem holds_along (property : Variable → Prop) {later : List Machine}
    (row : (machine :: later).IsChain Steps)
    (lives : ∀ between ∈ later, (between.stack.binding? site).isSome = true)
    (found : machine.stack.binding? site = some binding) (holds : property binding)
    (assigned : ∀ between ∈ machine :: later, ∀ held (value : Value),
      between.Assigns site held → property held →
        property (held.store (value.cast held.declarator.type))) :
    ∀ between ∈ machine :: later, ∃ held,
      between.stack.binding? site = some held ∧ property held := by
  induction later generalizing machine binding with
  | nil =>
      intro between member
      obtain rfl := List.mem_singleton.mp member
      exact ⟨binding, found, holds⟩
  | cons next later ih =>
      obtain ⟨steps, rest⟩ := List.isChain_cons_cons.mp row
      obtain ⟨nextLives, restLives⟩ := List.forall_mem_cons.mp lives
      obtain ⟨assignedHere, restAssigned⟩ := List.forall_mem_cons.mp assigned
      refine List.forall_mem_cons.mpr ⟨⟨binding, found, holds⟩, ?_⟩
      rcases steps.assigns_or_keeps found nextLives with kept | ⟨assigns, value, rfl⟩
      · exact ih rest restLives (kept.trans found) holds restAssigned
      · have stored : (machine.store site (value.cast binding.declarator.type)).stack.binding?
            site = some (binding.store (value.cast binding.declarator.type)) := by
          rw [binding?_store, if_pos rfl, found]
          rfl
        exact ih rest restLives stored (assignedHere binding value assigns holds) restAssigned

/-- A variable to which nothing is assigned stays as it is as long as it is there. -/
theorem constant_along {later : List Machine} (row : (machine :: later).IsChain Steps)
    (lives : ∀ between ∈ later, (between.stack.binding? site).isSome = true)
    (found : machine.stack.binding? site = some binding)
    (unassigned : ∀ between ∈ machine :: later, ¬ between.Assigns site binding) :
    ∀ between ∈ later, between.stack.binding? site = machine.stack.binding? site := by
  intro between member
  have kept := holds_along (· = binding) row lives found rfl fun other isThere held value assigns
    same => absurd (same ▸ assigns) (unassigned other isThere)
  obtain ⟨held, heldFound, rfl⟩ := kept between (List.mem_cons_of_mem _ member)
  rw [heldFound, found]

end Machine

/-! ## Main statement -/

/-- In every run of every program, from the moment at which a subject is bound until its
scope is closed, what a match or a pattern has bound does not change, and neither does what
a pipe has bound as long as no name leads to a reference to it.  Where there is such a name,
the variable of the pipe changes only in that a value is assigned by the name, cast to a
number. -/
theorem bound_subjects_change_through_references_only {maxDepth fuel : Nat} {program : Statement}
    {machine opened : Machine} {earlier stretch later : List Machine} {site : Site}
    (passed : (execute maxDepth fuel program : Tracing Flow).row machine =
      earlier ++ opened :: stretch ++ later)
    (lives : ∀ between ∈ stretch, (between.stack.binding? site).isSome = true) :
    (∀ span type value,
      opened.stack.binding? site = some (.holding ⟨span, false, type, subjectName⟩ value) →
      ∀ between ∈ stretch, between.stack.binding? site = opened.stack.binding? site) ∧
    (∀ span carried, opened.stack.binding? site = some (pipeVariable span carried) →
      ((∀ between ∈ opened :: stretch, ∀ name, ¬ between.LeadsTo name site) →
        ∀ between ∈ stretch, between.stack.binding? site = opened.stack.binding? site) ∧
      (∀ before between next behind, opened :: stretch = before ++ between :: next :: behind →
        next.stack.binding? site = between.stack.binding? site ∨
          ∃ name, between.LeadsTo name site ∧
            ∃ value : Value, next = between.store site (value.cast .number))) := by
  have row : (opened :: stretch).IsChain Machine.Steps := by
    have whole := (execute_proceeds maxDepth fuel program machine).row
    rw [passed] at whole
    exact whole.left_of_append.right_of_append
  refine ⟨fun span type value bound => ?_, fun span carried bound => ?_⟩
  · refine Machine.constant_along row lives bound fun between _ assigns => ?_
    cases assigns.assignable
  · have reserved : isReservedName site.name = true := by
      rw [← CallStack.name_eq_of_binding? bound]
      rfl
    have there := Machine.holds_along (·.declarator = (pipeVariable span carried).declarator)
      row lives bound rfl fun _ _ _ _ _ same => same
    refine ⟨fun unreferred => ?_, ?_⟩
    · refine Machine.constant_along row lives bound fun between member assigns => ?_
      obtain ⟨name, leads⟩ := assigns.exists_leadsTo reserved
      exact unreferred between member name leads
    · intro before between next behind cut
      obtain ⟨held, found, declared⟩ := there between (by rw [cut]; simp)
      obtain ⟨_, nextFound, -⟩ := there next (by rw [cut]; simp)
      have steps : between.Steps next := by
        rw [cut] at row
        exact (List.isChain_cons_cons.mp row.right_of_append).1
      have nextLives : (next.stack.binding? site).isSome = true := by
        rw [nextFound, Option.isSome_some]
      rcases steps.assigns_or_keeps found nextLives with kept | ⟨assigns, value, stored⟩
      · exact .inl kept
      · obtain ⟨name, leads⟩ := assigns.exists_leadsTo reserved
        refine .inr ⟨name, leads, value, ?_⟩
        rw [stored, declared]
        rfl

/-- What a pipe has bound is passed to a parameter that is assigned, and is another value
before the scope of the pipe is closed. -/
theorem assigned_parameter_changes_pipe :
    ∃ site program opened earlier stretch later,
      parse .standard ("FUNCTION F WITH MUTABLE FACT p RETURNS NOTHING p IS FALSE; " ++
        "TRUE THEN CALL F WITH PIPE NOW;") = .ok program ∧
      (execute 1600 40 program : Tracing Flow).row .initial =
        earlier ++ opened :: stretch ++ later ∧
      (∀ between ∈ stretch, (between.stack.binding? site).isSome = true) ∧
      opened.stack.binding? site = some (pipeVariable ⟨1, 60⟩ (.fact true)) ∧
      (∃ last ∈ stretch, last.stack.binding? site =
        some (pipeVariable ⟨1, 60⟩ ((Value.fact false).cast .number))) ∧
      ∃ referring ∈ opened :: stretch, ∃ name, referring.LeadsTo name site := by
  have runs : (parse .standard ("FUNCTION F WITH MUTABLE FACT p RETURNS NOTHING p IS FALSE; " ++
        "TRUE THEN CALL F WITH PIPE NOW;")).toOption.map (fun program =>
          let behind := ((execute 1600 40 program : Tracing Flow).row .initial).dropWhile
            fun machine => !(machine.stack.binding? ⟨0, 3, pipeName⟩).isSome
          (behind.head?.bind (·.stack.binding? ⟨0, 3, pipeName⟩),
            (behind.tail.takeWhile fun machine =>
              (machine.stack.binding? ⟨0, 3, pipeName⟩).isSome).getLast?.bind
              (·.stack.binding? ⟨0, 3, pipeName⟩))) =
      some (some (pipeVariable ⟨1, 60⟩ (.fact true)),
        some (pipeVariable ⟨1, 60⟩ ((Value.fact false).cast .number))) := by
    decide +kernel
  generalize parse .standard _ = parsed at runs ⊢
  generalize (⟨0, 3, pipeName⟩ : Site) = site at runs
  cases parsed with
  | error error => cases runs
  | ok program =>
      obtain ⟨first, final⟩ := Prod.mk.inj (Option.some.inj runs)
      obtain ⟨opened, isFirst, bound⟩ := Option.bind_eq_some_iff.mp first
      obtain ⟨rest, opens⟩ := List.head?_eq_some_iff.mp isFirst
      rw [opens, List.tail_cons] at final
      obtain ⟨last, isLast, changed⟩ := Option.bind_eq_some_iff.mp final
      have inside := List.mem_of_getLast? isLast
      have stays : ∀ between ∈ rest.takeWhile fun machine =>
          (machine.stack.binding? site).isSome,
          (between.stack.binding? site).isSome = true :=
        fun _ => List.mem_takeWhile_imp
      have passed : (execute 1600 40 program : Tracing Flow).row .initial =
          ((execute 1600 40 program : Tracing Flow).row .initial).takeWhile
            (fun machine => !(machine.stack.binding? site).isSome) ++
          opened :: (rest.takeWhile fun machine => (machine.stack.binding? site).isSome) ++
          rest.dropWhile (fun machine => (machine.stack.binding? site).isSome) := by
        rw [List.append_assoc, List.cons_append, List.takeWhile_append_dropWhile, ← opens,
          List.takeWhile_append_dropWhile]
      refine ⟨site, program, opened, _, _, _, rfl, passed, stays, bound,
        ⟨last, inside, changed⟩, ?_⟩
      -- If nothing referred to the variable it would hold what it held.
      by_contra none
      push Not at none
      have kept :=
        ((bound_subjects_change_through_references_only passed stays).2 _ _ bound).1 none
      rw [kept last inside, bound] at changed
      exact absurd changed (by decide)

end Plainspoken
