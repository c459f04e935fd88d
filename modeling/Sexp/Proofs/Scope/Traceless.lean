import Sexp.Proofs.Scope.History

/-!
# Steps that leave no trace

A refused step leaves the store as it was, however far it has come: a definition has changed
nothing, and the bindings of a new context are lost with it.  So does a question.
Neither can be noticed afterwards: without any choice of such steps a session gives every
other step the outcome that it had, with the same numbers for the same contexts.
-/

namespace Sexp

/-- A list without the items at the chosen places, which are counted from zero. -/
def deletePlaces {α : Type} (chosen : Nat → Bool) : List α → List α
  | [] => []
  | item :: rest =>
      let others := deletePlaces (fun place => chosen (place + 1)) rest
      if chosen 0 then others else item :: others

namespace Step

/-- A step that asks about a context and changes nothing. -/
def isQuestion : Step → Bool
  | new _ _ => false
  | child _ _ => false
  | define _ _ _ => false
  | defineToken _ _ _ => false
  | _ => true

/-- A step that cannot be accepted in any state: it offers as a parent what is no context,
or has a value that is not an atom among those that it is to bind. -/
def IsDoomed : Step → Prop
  | new entries offered =>
      (∃ node, offered = .value node) ∨ ∃ entry ∈ entries, entry.2.isAtom = false
  | child _ entries => ∃ entry ∈ entries, entry.2.isAtom = false
  | define _ _ node => node.isAtom = false
  | _ => False

end Step

/-- A step was refused or is a question. -/
def History.IsTraceless : Step × Except Refusal Answer → Prop
  | (step, outcome) => step.isQuestion = true ∨ ∃ refusal, outcome = .error refusal

theorem Bindings.isAtom_of_fill {scope : Scope} {b b' : Bindings}
    (hscope : b.fill scope = (b', .ok ())) : ∀ entry ∈ scope, entry.2.isAtom = true := by
  induction scope generalizing b with
  | nil => exact List.forall_mem_nil _
  | cons entry scope ih =>
      obtain ⟨name, node⟩ := entry
      obtain ⟨value, rfl, hrest⟩ := (fill_cons_eq_ok_iff b b' name node scope).1 hscope
      exact List.forall_mem_cons.2 ⟨rfl, ih hrest⟩

namespace Store

variable {store next : Store} {step : Step} {answer : Answer}

/-- A scope from which a context was made has atoms only. -/
theorem not_exists_of_performNew {scope : Scope} {offered : ParentArgument}
    (hnew : store.performNew scope offered = (next, .ok answer)) :
    ¬∃ entry ∈ scope, entry.2.isAtom = false := by
  obtain ⟨-, bindings, -, hscope, -, -⟩ :=
    (performNew_eq_ok_iff store scope offered next answer).1 hnew
  rintro ⟨entry, hentry, hatom⟩
  rw [Bindings.isAtom_of_fill hscope entry hentry] at hatom
  contradiction

theorem not_isDoomed_of_perform (hperform : store.perform step = (next, .ok answer)) :
    ¬step.IsDoomed := by
  cases step with
  | new scope offered =>
      rintro (⟨node, rfl⟩ | hvalue)
      · have hrefused := (Prod.mk.inj hperform).2
        contradiction
      · exact not_exists_of_performNew hperform hvalue
  | child number scope => exact not_exists_of_performNew hperform
  | define number name node =>
      obtain ⟨-, value, rfl, -, -⟩ :=
        (performDefine_eq_ok_iff store number name node next answer).1 hperform
      exact Bool.noConfusion
  | _ => exact not_false

/-- A doomed step is refused by every store. -/
theorem exists_perform_eq_error (store : Store) (hdoomed : step.IsDoomed) :
    ∃ refusal, store.perform step = (store, .error refusal) := by
  rcases hperform : store.perform step with ⟨next, refusal | answer⟩
  · exact ⟨refusal, by rw [eq_of_perform_eq_error hperform]⟩
  · exact absurd hdoomed (not_isDoomed_of_perform hperform)

/-- A step that was refused or is a question has left the store as it was. -/
theorem perform_of_isTraceless
    (htraceless : History.IsTraceless (step, (store.perform step).2)) :
    (store.perform step).1 = store := by
  rcases htraceless with hquestion | ⟨refusal, hrefused⟩
  · cases step with
    | new scope offered => contradiction
    | child number scope => contradiction
    | define number name node => contradiction
    | defineToken number name token => contradiction
    | _ => rfl
  · exact eq_of_perform_eq_error (Prod.ext rfl hrefused)

/-- Without some steps that leave no trace a run ends in the same store, and every other
step has the same outcome. -/
theorem run_deletePlaces {chosen : Nat → Bool} {steps : List Step}
    (htraceless : ∀ place entry, chosen place = true →
      (steps.zip (store.run steps).2)[place]? = some entry → History.IsTraceless entry) :
    store.run (deletePlaces chosen steps) =
      ((store.run steps).1, deletePlaces chosen (store.run steps).2) := by
  induction steps generalizing store chosen with
  | nil => rfl
  | cons step steps ih =>
      have hrest := @ih (store.perform step).1 (fun place => chosen (place + 1))
        fun place entry hchosen hentry => htraceless (place + 1) entry hchosen hentry
      cases hfirst : chosen 0 with
      | true =>
          -- The other steps go on from the store that the chosen one was given.
          have hstep := perform_of_isTraceless (htraceless 0 _ hfirst rfl)
          rw [hstep] at hrest
          simp only [deletePlaces, run, hfirst, if_true, hstep, hrest]
      | false =>
          simp only [deletePlaces, run, hfirst, Bool.false_eq_true, if_false, hrest]

end Store

/-- If each step of a chosen set was refused or is a question, then without them a session
gives every other step the same outcome and ends in the same store.  A step that offers a
wrong parent, or a value that is not an atom at any place of a scope, is always refused; and
whatever a step is refused for, it makes no context, takes no number and leaves all bindings
in place. -/
theorem session_deletePlaces (steps : List Step) (chosen : Nat → Bool)
    (htraceless : ∀ place entry, chosen place = true →
      (history steps)[place]? = some entry → History.IsTraceless entry) :
    session (deletePlaces chosen steps) = deletePlaces chosen (session steps) ∧
      Store.after (deletePlaces chosen steps) = Store.after steps ∧
      ∀ step : Step,
        (step.IsDoomed →
          ∃ refusal, session (steps ++ [step]) = session steps ++ [.error refusal]) ∧
        ∀ refusal, session (steps ++ [step]) = session steps ++ [.error refusal] →
          Store.after (steps ++ [step]) = Store.after steps := by
  have hrun := Store.run_deletePlaces htraceless
  obtain ⟨hafter, hsession⟩ := Prod.mk.inj hrun
  refine ⟨hsession, hafter, fun step => ⟨fun hdoomed => ?_, fun refusal hrefused => ?_⟩⟩
  · obtain ⟨refusal, hperform⟩ := (Store.after steps).exists_perform_eq_error hdoomed
    refine ⟨refusal, ?_⟩
    rw [session_append, Store.run, hperform]
    rfl
  · -- The last outcome of the longer session is what the step comes to on the store before it.
    rw [session_append] at hrefused
    have hstep := (List.cons.inj (List.append_cancel_left hrefused)).1
    rw [Store.after_append]
    exact Store.eq_of_perform_eq_error (Prod.ext rfl hstep)

/-- A context that fails after its first name is bound, a refused definition and a refused
look-up leave the binding of the name and the number of the next context as they were. -/
theorem session_deletePlaces_midway :
    let scope : Scope := [(['x'], .atom (.identifier ['b'])), (['y'], .list [])]
    let midway : Step := .new scope .none
    let steps : List Step :=
      [.new [(['x'], .atom (.identifier ['a']))] .none, midway, .define 0 ['x'] (.list []),
        .lookup 0 ['y'], .child 0 [], .get 1 ['x']]
    let chosen : Nat → Bool := fun place => [1, 2, 3].contains place
    (∀ place entry, chosen place = true →
        (history steps)[place]? = some entry → History.IsTraceless entry) ∧
      session (deletePlaces chosen steps) =
        [.ok (.number 0), .ok (.number 1), .ok (.atom (.identifier ['a']))] ∧
      midway.IsDoomed ∧ (Bindings.empty.fill scope).1.names = [['x']] ∧
      Store.after (steps ++ [midway]) = Store.after steps := by
  intro scope midway steps chosen
  have htraceless : ∀ place entry, chosen place = true →
      (history steps)[place]? = some entry → History.IsTraceless entry := by
    intro place entry hchosen hentry
    have hplace : place = 1 ∨ place = 2 ∨ place = 3 := by simpa [chosen] using hchosen
    rcases hplace with rfl | rfl | rfl
    · obtain rfl := Option.some.inj hentry
      exact .inr ⟨.notAtom "list".toList, rfl⟩
    · obtain rfl := Option.some.inj hentry
      exact .inr ⟨.notAtom "list".toList, rfl⟩
    · obtain rfl := Option.some.inj hentry
      exact .inr ⟨.unbound ['y'], rfl⟩
  have hdoomed : midway.IsDoomed :=
    .inr ⟨(['y'], .list []), List.mem_cons_of_mem _ List.mem_cons_self, rfl⟩
  obtain ⟨hsession, -, hrefused⟩ := session_deletePlaces steps chosen htraceless
  obtain ⟨refusal, hmidway⟩ := (hrefused midway).1 hdoomed
  refine ⟨htraceless, ?_, hdoomed, rfl, (hrefused midway).2 refusal hmidway⟩
  rw [hsession]
  rfl

end Sexp
