import Sexp.Proofs.Scope.Bindings
import Sexp.Proofs.Scope.Session

/-!
# Contexts made with a scope

To make a context with a scope is to make it empty and to bind the names of the scope in it,
one after the other.  The names are distinct, so they can be bound in any order.  A scope with
a value that is not an atom is refused for the first one, and the bindings that were made
before it are lost with the context.
-/

namespace Sexp

/-- The three ways of making a context whose parent is none or a context. -/
inductive Construction
  | root
  | inside (parent : Nat)
  | child (parent : Nat)

namespace Construction

/-- The step that makes a context in this way, with a scope. -/
def step : Construction → Scope → Step
  | root, scope => .new scope .none
  | inside parent, scope => .new scope (.context parent)
  | child parent, scope => .child parent scope

def parent? : Construction → Option Nat
  | root => none
  | inside parent => some parent
  | child parent => some parent

end Construction

/-- The definition in a context of a name of a scope. -/
def Step.ofEntry (number : Nat) (entry : Text × Node) : Step :=
  .define number entry.1 entry.2

namespace Bindings

/-- Binds a name to a node that is an atom. -/
def insertNode (b : Bindings) (entry : Text × Node) : Bindings :=
  match entry.2 with
  | .atom value => b.insert entry.1 value
  | _ => b

theorem insertNode_comm (b : Bindings) {entry entry' : Text × Node} (hne : entry.1 ≠ entry'.1) :
    (b.insertNode entry).insertNode entry' = (b.insertNode entry').insertNode entry := by
  obtain ⟨name, node⟩ := entry
  obtain ⟨name', node'⟩ := entry'
  cases node with
  | atom value =>
      cases node' with
      | atom value' => exact b.insert_comm hne value value'
      | list items => rfl
      | foreign typeName => rfl
  | list items => rfl
  | foreign typeName => rfl

/-- The names of a scope can be bound in any order. -/
theorem foldl_insertNode_of_perm {scope scope' : Scope} (hperm : scope'.Perm scope)
    (hnames : (scope.map (·.1)).Nodup) (b : Bindings) :
    scope'.foldl insertNode b = scope.foldl insertNode b := by
  refine (hperm.symm.foldl_eq' (fun entry hentry entry' hentry' b => ?_) b).symm
  -- Two entries of one name are one entry, because the names are distinct.
  by_cases hsame : entry = entry'
  · rw [hsame]
  · exact b.insertNode_comm fun hname =>
      hsame (List.inj_on_of_nodup_map hnames hentry hentry' hname)

/-- A scope of atoms is accepted, and its names are bound one after the other. -/
theorem fill_of_isAtom {scope : Scope} (hatoms : ∀ entry ∈ scope, entry.2.isAtom = true)
    (b : Bindings) : b.fill scope = (scope.foldl insertNode b, .ok ()) := by
  induction scope generalizing b with
  | nil => rfl
  | cons entry scope ih =>
      obtain ⟨name, node⟩ := entry
      obtain ⟨hnode, hrest⟩ := List.forall_mem_cons.1 hatoms
      cases node with
      | atom value => exact ih hrest (b.insert name value)
      | list items => contradiction
      | foreign typeName => contradiction

/-- A scope is refused for its first value that is not an atom, when the names before it
have been bound. -/
theorem fill_of_find? {scope : Scope} {entry : Text × Node}
    (hfind : scope.find? (fun entry => !entry.2.isAtom) = some entry) (b : Bindings) :
    b.fill scope = ((scope.takeWhile fun entry => entry.2.isAtom).foldl insertNode b,
      .error (.notAtom entry.2.typeName)) := by
  induction scope generalizing b with
  | nil => contradiction
  | cons head scope ih =>
      obtain ⟨name, node⟩ := head
      cases node with
      | atom value => exact ih hfind (b.insert name value)
      | list items =>
          obtain rfl := Option.some.inj hfind
          rfl
      | foreign typeName =>
          obtain rfl := Option.some.inj hfind
          rfl

end Bindings

namespace Store

theorem define_create (store : Store) (bindings : Bindings) (parent : Option Nat) (name : Text)
    (value : Atom) :
    (store.create bindings parent).define store.size name value =
      store.create (bindings.insert name value) parent := by
  have hnewest : (store.create bindings parent).bindings store.size = bindings := by
    rw [Store.bindings, context?_create, if_pos rfl]
    rfl
  rw [define, hnewest]
  simp only [create, rebind, rebindIn, size, if_pos]

/-- If there is the parent, a context is made with the bindings of its scope, or it is refused
for its scope. -/
theorem perform_construction {store : Store} {how : Construction}
    (hparent : ∀ parent ∈ how.parent?, parent < store.size) (scope : Scope) :
    store.perform (how.step scope) =
      match Bindings.empty.fill scope with
      | (bindings, .ok ()) => (store.create bindings how.parent?, .ok (.number store.size))
      | (_, .error refusal) => (store, .error refusal) := by
  have hcontext : ∀ parent < store.size, store.perform (.child parent scope) =
      match Bindings.empty.fill scope with
      | (bindings, .ok ()) => (store.create bindings (some parent), .ok (.number store.size))
      | (_, .error refusal) => (store, .error refusal) := by
    intro parent hlt
    simp only [perform, performNew, checkParent, checkContext_eq_ok hlt]
    rcases Bindings.empty.fill scope with ⟨bindings, refusal | _⟩ <;> rfl
  cases how with
  | root =>
      simp only [Construction.step, perform, performNew, checkParent]
      rcases Bindings.empty.fill scope with ⟨bindings, refusal | _⟩ <;> rfl
  | inside parent => exact hcontext parent (hparent parent rfl)
  | child parent => exact hcontext parent (hparent parent rfl)

/-- In the newest context the names of a scope of atoms are bound one after the other. -/
theorem run_ofEntry {scope : Scope} (hatoms : ∀ entry ∈ scope, entry.2.isAtom = true)
    (store : Store) (bindings : Bindings) (parent : Option Nat) :
    (store.create bindings parent).run (scope.map (Step.ofEntry store.size)) =
      (store.create (scope.foldl Bindings.insertNode bindings) parent,
        List.replicate scope.length (.ok .nothing)) := by
  induction scope generalizing bindings with
  | nil => rfl
  | cons entry scope ih =>
      obtain ⟨name, node⟩ := entry
      obtain ⟨hnode, hrest⟩ := List.forall_mem_cons.1 hatoms
      cases node with
      | atom value =>
          have hperform : (store.create bindings parent).perform
              (.define store.size name (.atom value)) =
                (store.create (bindings.insert name value) parent, .ok .nothing) := by
            rw [← define_create]
            exact (performDefine_eq_ok_iff _ _ _ _ _ _).2
              ⟨Nat.lt_succ_self _, value, rfl, rfl, rfl⟩
          rw [List.map_cons, run, Step.ofEntry, hperform]
          exact congrArg (fun result => (result.1, .ok .nothing :: result.2))
            (ih hrest (bindings.insert name value))
      | list items => contradiction
      | foreign typeName => contradiction

/-- With a scope of atoms a context is made that binds what the scope binds. -/
theorem run_construction {store : Store} {how : Construction}
    (hparent : ∀ parent ∈ how.parent?, parent < store.size) {scope : Scope}
    (hatoms : ∀ entry ∈ scope, entry.2.isAtom = true) :
    store.run [how.step scope] =
      (store.create (scope.foldl Bindings.insertNode .empty) how.parent?,
        [.ok (.number store.size)]) := by
  simp only [run, perform_construction hparent, Bindings.fill_of_isAtom hatoms]

/-- An empty context in which the names of a scope of atoms are bound is one that binds what
the scope binds. -/
theorem run_construction_ofEntry {store : Store} {how : Construction}
    (hparent : ∀ parent ∈ how.parent?, parent < store.size) {scope : Scope}
    (hatoms : ∀ entry ∈ scope, entry.2.isAtom = true) :
    store.run (how.step [] :: scope.map (Step.ofEntry store.size)) =
      (store.create (scope.foldl Bindings.insertNode .empty) how.parent?,
        .ok (.number store.size) :: List.replicate scope.length (.ok .nothing)) := by
  rw [run, perform_construction hparent]
  exact congrArg (fun result => (result.1, .ok (.number store.size) :: result.2))
    (run_ofEntry hatoms store .empty how.parent?)

end Store

/-- A context can be made with a scope of atoms and distinct names, or empty, and then the
names are bound in any order, without a difference to any other step of the session.  A scope
with a value that is not an atom is refused for the first of these values, and the session
goes on as if the step was not there. -/
theorem session_construction (before after : List Step) {how : Construction}
    (hparent : ∀ parent ∈ how.parent?, parent < (Store.after before).size) (scope : Scope) :
    ((scope.map (·.1)).Nodup → (∀ entry ∈ scope, entry.2.isAtom = true) →
      ∀ scope' : Scope, scope'.Perm scope → ∃ outcomes,
        session (before ++ how.step scope :: after) =
            session before ++ .ok (.number (Store.after before).size) :: outcomes ∧
          session (before ++ (how.step [] ::
              scope'.map (Step.ofEntry (Store.after before).size) ++ after)) =
            session before ++ .ok (.number (Store.after before).size) ::
              (List.replicate scope'.length (.ok .nothing) ++ outcomes) ∧
          Store.after (before ++ (how.step [] ::
              scope'.map (Step.ofEntry (Store.after before).size) ++ after)) =
            Store.after (before ++ how.step scope :: after)) ∧
    ((∃ entry ∈ scope, entry.2.isAtom = false) → ∃ entry outcomes,
      scope.find? (fun entry => !entry.2.isAtom) = some entry ∧
        (Refusal.notAtom entry.2.typeName).message =
          "scope values must be atoms, got ".toList ++ entry.2.typeName ∧
        session (before ++ how.step scope :: after) =
          session before ++ .error (.notAtom entry.2.typeName) :: outcomes ∧
        session (before ++ after) = session before ++ outcomes) := by
  have hsession := session_append_append before [how.step scope] after
  have hafter := Store.after_append_append before [how.step scope] after
  constructor
  · intro hnames hatoms scope' hperm
    have hatoms' : ∀ entry ∈ scope', entry.2.isAtom = true := fun entry hentry =>
      hatoms entry (hperm.mem_iff.1 hentry)
    have hsession' := session_append_append before
      (how.step [] :: scope'.map (Step.ofEntry (Store.after before).size)) after
    have hafter' := Store.after_append_append before
      (how.step [] :: scope'.map (Step.ofEntry (Store.after before).size)) after
    rw [Store.run_construction hparent hatoms] at hsession hafter
    rw [Store.run_construction_ofEntry hparent hatoms',
      Bindings.foldl_insertNode_of_perm hperm hnames] at hsession' hafter'
    exact ⟨_, hsession, hsession', hafter'.trans hafter.symm⟩
  · rintro ⟨bad, hbad, hfalse⟩
    have hsome : (scope.find? fun entry => !entry.2.isAtom).isSome := by
      rw [List.find?_isSome]
      exact ⟨bad, hbad, by rw [hfalse]; rfl⟩
    obtain ⟨entry, hfind⟩ := Option.isSome_iff_exists.1 hsome
    have hperform := Store.perform_construction hparent scope
    rw [Bindings.fill_of_find? hfind] at hperform
    simp only [Store.run, hperform] at hsession
    exact ⟨entry, _, hfind, rfl, hsession, session_append before after⟩

/-- A child is made empty, and its names are bound in the opposite order; with a list among the
values it is not made, and there is no context of its number. -/
theorem session_construction_of_child :
    let before : List Step := [.new [] .none]
    let scope : Scope :=
      [(['y'], .atom (.identifier ['b'])), (['x'], .atom (.identifier ['a']))]
    let mixed : Scope := (['z'], .atom (.string [])) :: (['y'], .list []) :: (['x'], .foreign []) ::
      scope
    let after : List Step := [.get 1 ['x'], .scope 1]
    (∀ parent ∈ (Construction.child 0).parent?, parent < (Store.after before).size) ∧
      (scope.map (·.1)).Nodup ∧ (∀ entry ∈ scope, entry.2.isAtom = true) ∧
      scope.reverse.Perm scope ∧ (∃ entry ∈ mixed, entry.2.isAtom = false) ∧
      session (before ++ (.child 0 [] :: scope.reverse.map (Step.ofEntry 1) ++ after)) =
        session before ++ .ok (.number 1) :: (List.replicate 2 (.ok .nothing) ++
          [.ok (.atom (.identifier ['a'])),
            .ok (.bindings [(['x'], .identifier ['a']), (['y'], .identifier ['b'])])]) ∧
      session (before ++ .child 0 mixed :: after) =
        session before ++ .error (.notAtom "list".toList) ::
          [.error (.noContext 1), .error (.noContext 1)] := by
  intro before scope mixed after
  have hparent : ∀ parent ∈ (Construction.child 0).parent?,
      parent < (Store.after before).size := by
    intro parent hparent
    obtain rfl := Option.some.inj hparent
    exact Nat.one_pos
  have hnames : (scope.map (·.1)).Nodup := by decide
  have hatoms : ∀ entry ∈ scope, entry.2.isAtom = true := List.all_eq_true.1 rfl
  have hmixed : ∃ entry ∈ mixed, entry.2.isAtom = false :=
    ⟨(['y'], .list []), List.mem_cons_of_mem _ List.mem_cons_self, rfl⟩
  have hperm := List.reverse_perm scope
  obtain ⟨outcomes, hsession, hpieces, -⟩ :=
    (session_construction before after hparent scope).1 hnames hatoms _ hperm
  have hknown : session (before ++ .child 0 scope :: after) =
      session before ++ .ok (.number 1) :: [.ok (.atom (.identifier ['a'])),
        .ok (.bindings [(['x'], .identifier ['a']), (['y'], .identifier ['b'])])] := rfl
  cases List.append_cancel_left (hsession.symm.trans hknown)
  obtain ⟨entry, outcomes, hfind, -, hrefused, hrest⟩ :=
    (session_construction before after hparent mixed).2 hmixed
  obtain rfl : (['y'], .list []) = entry := Option.some.inj hfind
  have hknown : session (before ++ after) =
      session before ++ [.error (.noContext 1), .error (.noContext 1)] := rfl
  cases List.append_cancel_left (hrest.symm.trans hknown)
  exact ⟨hparent, hnames, hatoms, hperm, hmixed, hpieces, hrefused⟩

end Sexp
