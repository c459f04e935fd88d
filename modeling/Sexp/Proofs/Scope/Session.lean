import Sexp.Proofs.Scope.Store
import Sexp.Scope.Session

/-!
# The steps of a session

What an accepted step can do to a store: the two ways of making a context agree, the two
ways of binding a name agree, and every other step is a question and leaves the store
alone.  A refused step leaves the store alone whatever it is: a definition is refused before
it binds anything, and a new context is not in the store yet when its scope is refused.  A
session takes its steps one after the other, so the outcomes of its last steps are their
outcomes on the store that the first steps leave.
-/

namespace Sexp

/-- A computation of two parts is accepted when both of its parts are. -/
theorem bind_eq_ok_iff {ε α β : Type} (first : Except ε α) (second : α → Except ε β)
    (result : β) :
    (first >>= second) = .ok result ↔ ∃ value, first = .ok value ∧ second value = .ok result := by
  cases first with
  | error failure => exact ⟨nofun, nofun⟩
  | ok value => exact ⟨fun h => ⟨value, rfl, h⟩, fun ⟨_, rfl, h⟩ => h⟩

theorem Node.bindable_eq_ok_iff (node : Node) (value : Atom) :
    node.bindable = .ok value ↔ node = .atom value := by
  cases node <;> simp [bindable]

/-- A scope is accepted if its first value is an atom and the rest of it is accepted after
the first name is bound. -/
theorem Bindings.fill_cons_eq_ok_iff (b b' : Bindings) (name : Text) (node : Node)
    (rest : Scope) :
    b.fill ((name, node) :: rest) = (b', .ok ()) ↔
      ∃ value, node = .atom value ∧ (b.insert name value).fill rest = (b', .ok ()) := by
  simp only [fill, define, ← Node.bindable_eq_ok_iff]
  cases node.bindable <;> simp

/-- The number of the context that is offered as a parent, if it is one. -/
def ParentArgument.number? : ParentArgument → Option Nat
  | context number => some number
  | _ => Option.none

namespace Store

theorem checkContext_eq_ok_iff (store : Store) (number : Nat) (result : Unit) :
    store.checkContext number = .ok result ↔ number < store.size := by
  rw [checkContext]
  split <;> simp [*]

theorem checkContext_eq_ok {store : Store} {number : Nat} (hnumber : number < store.size) :
    store.checkContext number = .ok () :=
  (checkContext_eq_ok_iff store number ()).2 hnumber

/-- An accepted parent is the one that was offered, and it is a context that there is. -/
theorem eq_of_checkParent_eq_ok {store : Store} {offered : ParentArgument}
    {parent : Option Nat} (hparent : store.checkParent offered = .ok parent) :
    parent = offered.number? ∧ ∀ number ∈ parent, number < store.size := by
  cases offered with
  | none =>
      obtain rfl := Except.ok.inj hparent
      exact ⟨rfl, nofun⟩
  | context number =>
      obtain ⟨_, hcheck, hresult⟩ := (bind_eq_ok_iff _ _ _).1 hparent
      obtain rfl := Except.ok.inj hresult
      refine ⟨rfl, fun number' hmem => ?_⟩
      obtain rfl := Option.some.inj hmem
      exact (checkContext_eq_ok_iff store number _).1 hcheck
  | value node => contradiction

theorem performNew_eq_ok_iff (store : Store) (scope : Scope) (offered : ParentArgument)
    (next : Store) (answer : Answer) :
    store.performNew scope offered = (next, .ok answer) ↔
      ∃ parent bindings, store.checkParent offered = .ok parent ∧
        Bindings.empty.fill scope = (bindings, .ok ()) ∧
          next = store.create bindings parent ∧ answer = .number store.size := by
  rw [performNew]
  cases store.checkParent offered with
  | error refusal => simp
  | ok parent =>
      rcases Bindings.empty.fill scope with ⟨bindings, refusal | _⟩
      · simp
      · simp [eq_comm]

/-- In a context that there is, a name is bound to an atom, and nothing is done for any other
node. -/
theorem performDefine_eq {store : Store} {number : Nat} (hnumber : number < store.size)
    (name : Text) (node : Node) :
    store.performDefine number name node =
      match node.bindable with
      | .ok value => (store.define number name value, .ok .nothing)
      | .error refusal => (store, .error refusal) := by
  rw [performDefine, checkContext_eq_ok hnumber, Bindings.define]
  cases node.bindable with
  | ok value => rfl
  | error refusal =>
      show (store.rebind number (store.bindings number), _) = _
      rw [rebind_bindings]
      rfl

theorem performDefine_of_size_le {store : Store} {number : Nat} (hnumber : store.size ≤ number)
    (name : Text) (node : Node) :
    store.performDefine number name node = (store, .error (.noContext number)) := by
  rw [performDefine, checkContext, if_neg (Nat.not_lt.2 hnumber)]

theorem performDefine_eq_ok_iff (store : Store) (number : Nat) (name : Text) (node : Node)
    (next : Store) (answer : Answer) :
    store.performDefine number name node = (next, .ok answer) ↔
      number < store.size ∧ ∃ value, node = .atom value ∧
        next = store.define number name value ∧ answer = .nothing := by
  simp only [← Node.bindable_eq_ok_iff]
  by_cases hnumber : number < store.size
  · rw [performDefine_eq hnumber]
    cases node.bindable <;> simp [hnumber, eq_comm]
  · rw [performDefine_of_size_le (Nat.le_of_not_lt hnumber)]
    simp [hnumber]

/-- A refused construction leaves the store alone, however many names were bound before. -/
theorem eq_of_performNew_eq_error {store next : Store} {scope : Scope}
    {offered : ParentArgument} {refusal : Refusal}
    (hnew : store.performNew scope offered = (next, .error refusal)) : next = store := by
  rw [performNew] at hnew
  cases hparent : store.checkParent offered with
  | error refusal' =>
      rw [hparent] at hnew
      exact (Prod.mk.inj hnew).1.symm
  | ok parent =>
      rw [hparent] at hnew
      rcases hfill : Bindings.empty.fill scope with ⟨bindings, refusal' | _⟩
      · simp only [hfill] at hnew
        exact (Prod.mk.inj hnew).1.symm
      · simp only [hfill] at hnew
        have haccepted := (Prod.mk.inj hnew).2
        contradiction

/-- A refused definition leaves every binding in place, that of its own name too. -/
theorem eq_of_performDefine_eq_error {store next : Store} {number : Nat} {name : Text}
    {node : Node} {refusal : Refusal}
    (hdefine : store.performDefine number name node = (next, .error refusal)) :
    next = store := by
  by_cases hnumber : number < store.size
  · rw [performDefine_eq hnumber] at hdefine
    cases hnode : node.bindable with
    | ok value =>
        rw [hnode] at hdefine
        have haccepted := (Prod.mk.inj hdefine).2
        contradiction
    | error refusal' =>
        rw [hnode] at hdefine
        exact (Prod.mk.inj hdefine).1.symm
  · rw [performDefine_of_size_le (Nat.le_of_not_lt hnumber)] at hdefine
    exact (Prod.mk.inj hdefine).1.symm

theorem eq_of_ask_eq {store next : Store} {number : Nat} {asked outcome : Except Refusal Answer}
    (hask : store.ask number asked = (next, outcome)) : next = store :=
  (Prod.mk.inj hask).1.symm

/-- A token is bound as the atom that it stands for. -/
theorem perform_defineToken (store : Store) (number : Nat) (name token : Text) :
    store.perform (.defineToken number name token) =
      store.performDefine number name (.atom (Atom.ofToken token)) := rfl

/-- A refused step leaves the store alone. -/
theorem eq_of_perform_eq_error {store next : Store} {step : Step} {refusal : Refusal}
    (hperform : store.perform step = (next, .error refusal)) : next = store := by
  cases step with
  | new scope offered => exact eq_of_performNew_eq_error hperform
  | child number scope => exact eq_of_performNew_eq_error hperform
  | define number name node => exact eq_of_performDefine_eq_error hperform
  | defineToken number name token =>
      rw [perform_defineToken] at hperform
      exact eq_of_performDefine_eq_error hperform
  | _ => exact eq_of_ask_eq hperform

/-- A question about a context that there is gets its answer, and the store stays. -/
theorem perform_of_ask {store : Store} {step : Step} {number : Nat}
    {asked : Except Refusal Answer} (hnumber : number < store.size)
    (hstep : store.perform step = store.ask number asked) :
    store.perform step = (store, asked) := by
  rw [hstep, ask, checkContext_eq_ok hnumber]
  rfl

theorem run_append (store : Store) (steps steps' : List Step) :
    store.run (steps ++ steps') =
      (((store.run steps).1.run steps').1,
        (store.run steps).2 ++ ((store.run steps).1.run steps').2) := by
  induction steps generalizing store with
  | nil => rfl
  | cons step steps ih =>
      simp only [List.cons_append, run, ih]

theorem length_run (store : Store) (steps : List Step) :
    (store.run steps).2.length = steps.length := by
  induction steps generalizing store with
  | nil => rfl
  | cons step steps ih => simp [run, ih]

/-- The store that the steps of a session leave. -/
def after (steps : List Step) : Store := (empty.run steps).1

theorem after_append (steps steps' : List Step) :
    after (steps ++ steps') = ((after steps).run steps').1 := by
  rw [after, run_append]
  rfl

end Store

theorem Store.after_append_append (before middle last : List Step) :
    after (before ++ (middle ++ last)) =
      ((((after before).run middle).1).run last).1 := by
  rw [after_append, run_append]

/-- Every step of a session has an outcome. -/
theorem length_session (steps : List Step) : (session steps).length = steps.length :=
  Store.length_run .empty steps

/-- The last steps of a session have the outcomes that they have on the store that the
first steps leave. -/
theorem session_append (steps steps' : List Step) :
    session (steps ++ steps') = session steps ++ ((Store.after steps).run steps').2 := by
  rw [session, Store.run_append]
  rfl

/-- The last steps have the outcomes that they have on the store that the steps in the middle
leave. -/
theorem session_append_append (before middle last : List Step) :
    session (before ++ (middle ++ last)) = session before ++
      (((Store.after before).run middle).2 ++
        ((((Store.after before).run middle).1).run last).2) := by
  rw [session_append, Store.run_append]

end Sexp
