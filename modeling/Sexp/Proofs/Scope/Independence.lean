import Sexp.Proofs.Scope.Display
import Sexp.Proofs.Scope.Growth

/-!
# The order of definitions

Whether a definition is accepted is decided by the definition and by how many contexts there
are, and definitions make no contexts.  Bindings of different names, or in different contexts,
can be made in either order and leave the same store, so no later step can tell the order.
Two bindings of one name in one context leave what the second one leaves.
-/

namespace Sexp

namespace Store

/-- Definitions for different targets can be made in either order. -/
theorem define_comm {number number' : Nat} {name name' : Text}
    (hne : (number, name) ≠ (number', name')) (store : Store) (value value' : Atom) :
    (store.define number name value).define number' name' value' =
      (store.define number' name' value').define number name value := by
  refine ext_context? (by simp) fun other => ?_
  simp only [context?_define, Option.map_map]
  refine Option.map_congr fun context _ => ?_
  by_cases hother : other = number
  · by_cases hother' : other = number'
    · have hname : name ≠ name' := fun hname => hne (by rw [← hother, hother', hname])
      simp only [Function.comp, if_pos hother, if_pos hother', Bindings.insert_comm _ hname]
    · simp only [Function.comp, if_pos hother, if_neg hother']
  · simp only [Function.comp, if_neg hother]

/-- Of two definitions for one target only the second can be noticed. -/
theorem define_define (store : Store) (number : Nat) (name : Text) (value value' : Atom) :
    (store.define number name value).define number name value' =
      store.define number name value' := by
  refine ext_context? (by simp) fun other => ?_
  simp only [context?_define, Option.map_map]
  refine Option.map_congr fun context _ => ?_
  by_cases hother : other = number
  · simp only [Function.comp, if_pos hother, Bindings.insert_insert]
  · simp only [Function.comp, if_neg hother]

/-- Binds a name to an atom, or refuses to. -/
def assign (store : Store) (number : Nat) (name : Text) :
    Except Refusal Atom → Store × Except Refusal Answer
  | .ok value => (store.define number name value, .ok .nothing)
  | .error refusal => (store, .error refusal)

theorem size_assign (store : Store) (number : Nat) (name : Text)
    (bound : Except Refusal Atom) : (store.assign number name bound).1.size = store.size := by
  cases bound with
  | ok value => exact size_define store number name value
  | error refusal => rfl

theorem assign_comm {number number' : Nat} {name name' : Text}
    (hne : (number, name) ≠ (number', name')) (store : Store)
    (bound bound' : Except Refusal Atom) :
    ((store.assign number name bound).1.assign number' name' bound').1 =
      ((store.assign number' name' bound').1.assign number name bound).1 := by
  cases bound with
  | ok value =>
      cases bound' with
      | ok value' => exact define_comm hne store value value'
      | error refusal' => rfl
  | error refusal => rfl

theorem assign_snd (store later : Store) (number : Nat) (name : Text)
    (bound : Except Refusal Atom) :
    (store.assign number name bound).2 = (later.assign number name bound).2 := by
  cases bound <;> rfl

variable {first second step : Step}

theorem exists_perform_define_eq_assign (number : Nat) (name : Text) (node : Node) :
    ∃ bound : Nat → Except Refusal Atom, ∀ store : Store,
      store.perform (.define number name node) =
        store.assign number name (bound store.size) := by
  refine ⟨fun size => if number < size then node.bindable else .error (.noContext number),
    fun store => ?_⟩
  by_cases hnumber : number < store.size
  · rw [perform, performDefine_eq hnumber]
    simp only [if_pos hnumber]
    cases node.bindable <;> rfl
  · rw [perform, performDefine_of_size_le (Nat.le_of_not_lt hnumber)]
    simp only [if_neg hnumber]
    rfl

/-- What a definition binds its name to, or why it is refused, does not depend on what is bound
in the store. -/
theorem exists_perform_eq_assign {target : Nat × Text} (hstep : step.definition? = some target) :
    ∃ bound : Nat → Except Refusal Atom,
      ∀ store : Store, store.perform step = store.assign target.1 target.2 (bound store.size) := by
  cases step with
  | define number name node =>
      obtain rfl := Option.some.inj hstep
      exact exists_perform_define_eq_assign number name node
  | defineToken number name token =>
      -- A token is bound as the atom that it is classified as.
      obtain rfl := Option.some.inj hstep
      exact exists_perform_define_eq_assign number name (.atom (Atom.ofToken token))
  | _ => contradiction

/-- Definitions for different targets have their own outcomes in either order, and leave the
same store. -/
theorem run_definitions_comm {target target' : Nat × Text}
    (hfirst : first.definition? = some target) (hsecond : second.definition? = some target')
    (hne : target ≠ target') (store : Store) :
    ∃ later outcome outcome', store.run [first, second] = (later, [outcome, outcome']) ∧
      store.run [second, first] = (later, [outcome', outcome]) := by
  obtain ⟨bound, hbound⟩ := exists_perform_eq_assign hfirst
  obtain ⟨bound', hbound'⟩ := exists_perform_eq_assign hsecond
  have hswapped : store.run [second, first] =
      (((store.assign target'.1 target'.2 (bound' store.size)).1.assign target.1 target.2
          (bound store.size)).1,
        [(store.assign target'.1 target'.2 (bound' store.size)).2,
          (store.assign target.1 target.2 (bound store.size)).2]) := by
    simp only [run, hbound, hbound', size_assign]
    rw [assign_snd _ store target.1]
  refine ⟨_, _, _, ?_, hswapped⟩
  simp only [run, hbound, hbound', size_assign]
  rw [assign_comm hne, assign_snd _ store target'.1]

/-- Of two accepted definitions for one target only the second can be noticed. -/
theorem run_definitions_absorb {target : Nat × Text} (hfirst : first.definition? = some target)
    (hsecond : second.definition? = some target) {store later : Store} {answer answer' : Answer}
    (hrun : store.run [first, second] = (later, [.ok answer, .ok answer'])) :
    store.run [second] = (later, [.ok answer']) := by
  obtain ⟨bound, hbound⟩ := exists_perform_eq_assign hfirst
  obtain ⟨bound', hbound'⟩ := exists_perform_eq_assign hsecond
  simp only [run, hbound, hbound', size_assign] at hrun ⊢
  obtain ⟨hlater, houtcomes⟩ := Prod.mk.inj hrun
  obtain ⟨houtcome, houtcome'⟩ := List.cons.inj houtcomes
  cases hvalue : bound store.size with
  | error refusal =>
      rw [hvalue] at houtcome
      contradiction
  | ok value =>
      rw [hvalue] at hlater houtcome'
      rw [assign_snd _ store] at houtcome'
      cases hvalue' : bound' store.size with
      | error refusal =>
          rw [hvalue'] at houtcome'
          have hhead := (List.cons.inj houtcome').1
          contradiction
      | ok value' =>
          rw [hvalue'] at hlater houtcome'
          refine Prod.ext ?_ houtcome'
          rw [← hlater]
          exact (define_define store target.1 target.2 value value').symm

end Store

/-- Two sessions have bound the same names to the same values in a context, perhaps in another
order, and when the context is shown at their ends, they show the same. -/
structure ShowAlike (steps steps' : List Step) (context : Nat) : Prop where
  perm : ((history steps').dictionary context).entries.Perm
    ((history steps).dictionary context).entries
  shown : session (steps ++ [.scope context, .describe context]) = session steps ++
    ((history steps).dictionary context).shown ((Store.after steps).depth context)
  shown' : session (steps' ++ [.scope context, .describe context]) = session steps' ++
    ((history steps').dictionary context).shown ((Store.after steps').depth context)
  shown_eq : ((history steps').dictionary context).shown ((Store.after steps').depth context) =
    ((history steps).dictionary context).shown ((Store.after steps).depth context)

theorem ShowAlike.of_after_eq {steps steps' : List Step} {context : Nat}
    (hafter : Store.after steps' = Store.after steps)
    (hcontext : context < (Store.after steps).size) : ShowAlike steps steps' context := by
  have hperm : ((history steps').dictionary context).entries.Perm
      ((history steps).dictionary context).entries := by
    rw [← Dictionary.sorted_eq_iff, ← Store.bindings_after, ← Store.bindings_after, hafter]
  refine ⟨hperm, session_shown steps hcontext, session_shown steps' (hafter ▸ hcontext), ?_⟩
  rw [hafter]
  exact Dictionary.shown_of_perm hperm _

/-- Two definitions that stand next to each other in a session and have different targets can
change places: each keeps its outcome, every other step has the outcome that it had, and the
session ends in the same store.  A context may have its names from the two sessions in different
orders, and shows them alike.  If the two have the same target and both are accepted, the first
one can be left out. -/
theorem session_definitions_unordered (before after : List Step) {first second : Step}
    {target target' : Nat × Text} (hfirst : first.definition? = some target)
    (hsecond : second.definition? = some target') :
    (target ≠ target' → ∃ outcome outcome' outcomes,
      session (before ++ first :: second :: after) =
          session before ++ outcome :: outcome' :: outcomes ∧
        session (before ++ second :: first :: after) =
          session before ++ outcome' :: outcome :: outcomes ∧
        Store.after (before ++ second :: first :: after) =
          Store.after (before ++ first :: second :: after) ∧
        ∀ context < (Store.after (before ++ first :: second :: after)).size,
          ShowAlike (before ++ first :: second :: after) (before ++ second :: first :: after)
            context) ∧
    (target = target' → ∀ answer answer' outcomes,
      session (before ++ first :: second :: after) =
          session before ++ .ok answer :: .ok answer' :: outcomes →
        session (before ++ second :: after) = session before ++ .ok answer' :: outcomes ∧
        Store.after (before ++ second :: after) =
          Store.after (before ++ first :: second :: after) ∧
        ∀ context < (Store.after (before ++ first :: second :: after)).size,
          ShowAlike (before ++ first :: second :: after) (before ++ second :: after) context) := by
  have hsession := session_append_append before [first, second] after
  have hafter := Store.after_append_append before [first, second] after
  constructor
  · intro hne
    obtain ⟨later, outcome, outcome', hrun, hswapped⟩ :=
      Store.run_definitions_comm hfirst hsecond hne (Store.after before)
    rw [hrun] at hsession hafter
    have hsession' := session_append_append before [second, first] after
    have hafter' := Store.after_append_append before [second, first] after
    rw [hswapped] at hsession' hafter'
    have hsame := hafter'.trans hafter.symm
    exact ⟨outcome, outcome', (later.run after).2, hsession, hsession', hsame,
      fun context hcontext => .of_after_eq hsame hcontext⟩
  · rintro rfl answer answer' outcomes houtcomes
    -- The first outcomes after `before` are those of the two definitions.
    have hpair : ((Store.after before).run [first, second]).2 ++
        ((((Store.after before).run [first, second]).1).run after).2 =
          [.ok answer, .ok answer'] ++ outcomes :=
      List.append_cancel_left (hsession.symm.trans houtcomes)
    obtain ⟨haccepted, hrest⟩ := List.append_inj hpair
      (Store.length_run (Store.after before) [first, second])
    have hsingle := Store.run_definitions_absorb hfirst hsecond (Prod.ext rfl haccepted)
    have hsession' := session_append_append before [second] after
    have hafter' := Store.after_append_append before [second] after
    rw [hsingle] at hsession' hafter'
    rw [hrest] at hsession'
    have hsame := hafter'.trans hafter.symm
    exact ⟨hsession', hsame, fun context hcontext => .of_after_eq hsame hcontext⟩

/-- A definition in a child changes places with a refused one in its parent and with one of
another name, which is then the first name of the child; and of two definitions in the child
the first one is left out. -/
theorem session_definitions_unordered_of_child :
    let before : List Step := [.new [] .none, .child 0 []]
    let inner : Step := .define 1 ['x'] (.atom (.identifier ['a']))
    let outer : Step := .define 0 ['x'] (.list [])
    let other : Step := .define 1 ['w'] (.atom (.string []))
    let again : Step := .defineToken 1 ['x'] ['b']
    let after : List Step := [.get 1 ['x'], .contains 0 ['x']]
    inner.definition? = some (1, ['x']) ∧ outer.definition? = some (0, ['x']) ∧
      other.definition? = some (1, ['w']) ∧ again.definition? = some (1, ['x']) ∧
      session (before ++ outer :: inner :: after) =
        session before ++ .error (.notAtom "list".toList) :: .ok .nothing ::
          [.ok (.atom (.identifier ['a'])), .ok (.truth false)] ∧
      ((history (before ++ inner :: other :: after)).dictionary 1).names = [['x'], ['w']] ∧
      ((history (before ++ other :: inner :: after)).dictionary 1).names = [['w'], ['x']] ∧
      ShowAlike (before ++ inner :: other :: after) (before ++ other :: inner :: after) 1 ∧
      session (before ++ again :: after) =
        session before ++ .ok .nothing ::
          [.ok (.atom (.identifier ['b'])), .ok (.truth false)] := by
  intro before inner outer other again after
  have hinner : inner.definition? = some (1, ['x']) := rfl
  have houter : outer.definition? = some (0, ['x']) := rfl
  have hother : other.definition? = some (1, ['w']) := rfl
  have hagain : again.definition? = some (1, ['x']) := rfl
  obtain ⟨outcome, outcome', outcomes, hsession, hswapped, -⟩ :=
    (session_definitions_unordered before after hinner houter).1 (by decide)
  have hknown : session (before ++ inner :: outer :: after) =
      session before ++ .ok .nothing :: .error (.notAtom "list".toList) ::
        [.ok (.atom (.identifier ['a'])), .ok (.truth false)] := rfl
  cases List.append_cancel_left (hsession.symm.trans hknown)
  obtain ⟨-, -, -, -, -, -, halike⟩ :=
    (session_definitions_unordered before after hinner hother).1 (by decide)
  exact ⟨rfl, rfl, rfl, rfl, hswapped, rfl, rfl, halike 1 (by decide),
    ((session_definitions_unordered before after hinner hagain).2 rfl .nothing .nothing _ rfl).1⟩

end Sexp
