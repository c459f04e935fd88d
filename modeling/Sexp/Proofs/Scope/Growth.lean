import Sexp.Proofs.Scope.Session
import Sexp.Proofs.Scope.Store

/-!
# Stores only grow

An accepted step makes a context, binds a name in a context that there is, or leaves the
store alone.  So the contexts of a store keep their numbers and their parents whatever steps
follow, and a name that a context binds stays bound in it.  A name that it did not bind can
only come in by an accepted definition of that name in that context.
-/

namespace Sexp

/-- The context and the name that a definition is for. -/
def Step.definition? : Step → Option (Nat × Text)
  | define context name _ => some (context, name)
  | defineToken context name _ => some (context, name)
  | _ => none

/-- A step was a definition of a name in a context, and was accepted. -/
def History.Defines (entry : Step × Except Refusal Answer) (context : Nat) (name : Text) :
    Prop :=
  entry.1.definition? = some (context, name) ∧ entry.2 = .ok .nothing

namespace Store

variable {store next : Store} {step : Step} {answer : Answer}

theorem create_of_performNew {scope : Scope} {offered : ParentArgument}
    (hnew : store.performNew scope offered = (next, .ok answer)) :
    ∃ bindings parent, next = store.create bindings parent ∧ answer = .number store.size := by
  obtain ⟨parent, bindings, -, -, hnext, hanswer⟩ :=
    (performNew_eq_ok_iff store scope offered next answer).1 hnew
  exact ⟨bindings, parent, hnext, hanswer⟩

/-- An accepted step has made a context, has bound a name in a context that there was, or
has left the store alone. -/
theorem perform_cases (hperform : store.perform step = (next, .ok answer)) :
    (step.definition? = none ∧
      ∃ bindings parent, next = store.create bindings parent ∧ answer = .number store.size) ∨
    (∃ number name value, step.definition? = some (number, name) ∧ number < store.size ∧
      next = store.define number name value ∧ answer = .nothing) ∨
    (step.definition? = none ∧ next = store) := by
  cases step with
  | new scope offered => exact .inl ⟨rfl, create_of_performNew hperform⟩
  | child number scope => exact .inl ⟨rfl, create_of_performNew hperform⟩
  | define number name node =>
      obtain ⟨hnumber, value, -, hnext, hanswer⟩ :=
        (performDefine_eq_ok_iff store number name node next answer).1 hperform
      exact .inr (.inl ⟨number, name, value, rfl, hnumber, hnext, hanswer⟩)
  | defineToken number name token =>
      rw [perform_defineToken] at hperform
      obtain ⟨hnumber, value, -, hnext, hanswer⟩ :=
        (performDefine_eq_ok_iff store number name _ next answer).1 hperform
      exact .inr (.inl ⟨number, name, value, rfl, hnumber, hnext, hanswer⟩)
  | _ => exact .inr (.inr ⟨rfl, eq_of_ask_eq hperform⟩)

/-- A store extends another one when it has the contexts of it, with the same parents. -/
structure Extends (later store : Store) : Prop where
  size_le : store.size ≤ later.size
  parent?_eq : ∀ number < store.size, later.parent? number = store.parent? number

namespace Extends

theorem refl (store : Store) : store.Extends store :=
  ⟨Nat.le_refl _, fun _ _ => rfl⟩

theorem trans {last later : Store} (hlast : last.Extends later) (hlater : later.Extends store) :
    last.Extends store where
  size_le := Nat.le_trans hlater.size_le hlast.size_le
  parent?_eq := by
    intro number hnumber
    have hthere := Nat.lt_of_lt_of_le hnumber hlater.size_le
    rw [hlast.parent?_eq number hthere, hlater.parent?_eq number hnumber]

theorem create (store : Store) (bindings : Bindings) (parent : Option Nat) :
    (store.create bindings parent).Extends store where
  size_le := Nat.le_succ _
  parent?_eq := by
    intro number hnumber
    rw [parent?_create, if_neg (Nat.ne_of_lt hnumber)]

theorem define (store : Store) (number : Nat) (name : Text) (value : Atom) :
    (store.define number name value).Extends store where
  size_le := Nat.le_of_eq (size_define store number name value).symm
  parent?_eq := fun other _ => parent?_define store number other name value

theorem perform (store : Store) (step : Step) : (store.perform step).1.Extends store := by
  rcases hperform : store.perform step with ⟨next, refusal | answer⟩
  · rw [eq_of_perform_eq_error hperform]
    exact refl store
  · obtain ⟨-, bindings, parent, hnext, -⟩ | ⟨number, name, value, -, -, hnext, -⟩ |
      ⟨-, hnext⟩ := perform_cases hperform
    · exact hnext ▸ create store bindings parent
    · exact hnext ▸ define store number name value
    · exact hnext ▸ refl store

theorem run (store : Store) (steps : List Step) : (store.run steps).1.Extends store := by
  induction steps generalizing store with
  | nil => exact refl store
  | cons step steps ih => exact (ih (store.perform step).1).trans (perform store step)

end Extends

/-- After a step a context binds the names that it bound before, and the name that the step
has defined in it. -/
theorem isSome_getOwn?_perform {number : Nat} (hnumber : number < store.size) (step : Step)
    (name : Text) :
    ((store.perform step).1.getOwn? number name).isSome ↔
      (store.getOwn? number name).isSome ∨
        History.Defines (step, (store.perform step).2) number name := by
  rcases hperform : store.perform step with ⟨next, refusal | answer⟩
  · rw [eq_of_perform_eq_error hperform]
    simp [History.Defines]
  · obtain ⟨hnone, bindings, parent, hnext, -⟩ |
      ⟨target, name', value, hsome, htarget, hnext, hanswer⟩ | ⟨hnone, hnext⟩ :=
      perform_cases hperform
    · rw [hnext, getOwn?_create, if_neg (Nat.ne_of_lt hnumber)]
      simp [History.Defines, hnone]
    · rw [hnext, getOwn?_define htarget]
      simp only [History.Defines, hsome, hanswer, and_true, Option.some.injEq, Prod.mk.injEq]
      split
      · next hdefined => simp [hdefined]
      · next hother =>
        have hne : ¬(target = number ∧ name' = name) :=
          fun hsame => hother ⟨hsame.1.symm, hsame.2.symm⟩
        simp [hne]
    · rw [hnext]
      simp [History.Defines, hnone]

/-- After some steps a context binds the names that it bound before, and those that one of
the steps has defined in it. -/
theorem isSome_getOwn?_run {number : Nat} (hnumber : number < store.size) (steps : List Step)
    (name : Text) :
    ((store.run steps).1.getOwn? number name).isSome ↔
      (store.getOwn? number name).isSome ∨
        ∃ entry ∈ steps.zip (store.run steps).2, History.Defines entry number name := by
  induction steps generalizing store with
  | nil => simp [run]
  | cons step steps ih =>
      have hthere := Nat.lt_of_lt_of_le hnumber (Extends.perform store step).size_le
      have hrest := ih hthere
      rw [isSome_getOwn?_perform hnumber] at hrest
      simp only [run, List.zip_cons_cons, List.mem_cons, or_and_right, exists_or, exists_eq_left]
      rw [hrest, or_assoc]

end Store

end Sexp
