import Sexp.Proofs.Scope.Supply

/-!
# Where a definition is seen

A context sees what another one binds a name to when that one is the context itself or one of
its ancestors and no nearer context binds the name.  A definition gives the name its value in
exactly the contexts that see it, however many they are, and leaves every other name, and
every other context, with what it had.  Both follow from the parent to the child.
-/

namespace Sexp

namespace Store

/-- Whether a context sees what another one binds a name to. -/
def Sees (store : Store) (number : Nat) (name : Text) (target : Nat) : Prop :=
  ∃ distance, store.ancestor? distance number = some target ∧
    ∀ nearer < distance, store.bindsAt number name nearer = false

variable {store : Store} {number target : Nat} {name : Text}

/-- A context sees itself, and where it does not bind the name it sees what its parent sees. -/
theorem sees_iff (store : Store) (number : Nat) (name : Text) (target : Nat) :
    store.Sees number name target ↔ number = target ∨
      store.getOwn? number name = none ∧
        ∃ parent, store.parent? number = some parent ∧ store.Sees parent name target := by
  constructor
  · rintro ⟨distance, htarget, hnearer⟩
    cases distance with
    | zero => exact .inl (Option.some.inj htarget)
    | succ distance =>
        obtain ⟨parent, hparent, hrest⟩ := Option.bind_eq_some_iff.1 htarget
        have hown : store.getOwn? number name = none := by
          simpa [bindsAt_zero] using hnearer 0 (Nat.succ_pos distance)
        refine .inr ⟨hown, parent, hparent, distance, hrest, fun nearer hlt => ?_⟩
        rw [← bindsAt_succ hparent]
        exact hnearer (nearer + 1) (Nat.succ_lt_succ hlt)
  · rintro (rfl | ⟨hown, parent, hparent, distance, htarget, hnearer⟩)
    · exact ⟨0, rfl, fun nearer hlt => absurd hlt (Nat.not_lt_zero nearer)⟩
    · refine ⟨distance + 1, ?_, fun nearer hlt => ?_⟩
      · rw [ancestor?, hparent, Option.bind_some, htarget]
      · cases nearer with
        | zero => rw [bindsAt_zero, hown, Option.isSome_none]
        | succ nearer =>
            rw [bindsAt_succ hparent]
            exact hnearer nearer (Nat.lt_of_succ_lt_succ hlt)

/-- The contexts that see a definition have its value. -/
theorem get?_define_of_sees (hordered : store.IsOrdered) (htarget : target < store.size)
    (value : Atom) (hsees : store.Sees number name target) :
    (store.define target name value).get? number name = some value := by
  induction number using hordered.wellFounded.induction with
  | h number ih =>
      rw [get?_eq_or (hordered.define target name value), getOwn?_define htarget, parent?_define]
      rcases (sees_iff store number name target).1 hsees with rfl | ⟨hown, parent, hparent, hrest⟩
      · rw [if_pos ⟨rfl, rfl⟩, Option.some_or]
      · split
        · rfl
        · rw [hown, hparent, Option.none_or, Option.bind_some]
          exact ih parent hparent hrest

/-- The other contexts, and the other names, have what they had. -/
theorem get?_define_of_not_sees (hordered : store.IsOrdered) (htarget : target < store.size)
    (value : Atom) {name' : Text} (hunseen : ¬(name' = name ∧ store.Sees number name target)) :
    (store.define target name value).get? number name' = store.get? number name' := by
  induction number using hordered.wellFounded.induction with
  | h number ih =>
      have hself : ¬(number = target ∧ name' = name) := by
        rintro ⟨hnumber, hname⟩
        exact hunseen ⟨hname, (sees_iff store number name target).2 (.inl hnumber)⟩
      rw [get?_eq_or (hordered.define target name value), get?_eq_or hordered,
        getOwn?_define htarget, parent?_define, if_neg hself]
      cases hown : store.getOwn? number name' with
      | some _ => rfl
      | none =>
          cases hparent : store.parent? number with
          | none => rfl
          | some parent =>
              -- Past a context that does not bind the name, its parent sees no more than it does.
              refine ih parent hparent fun ⟨hname, hsees⟩ => hunseen ⟨hname, ?_⟩
              subst hname
              exact (sees_iff store number name' target).2 (.inr ⟨hown, parent, hparent, hsees⟩)

end Store

theorem Store.run_get {store : Store} {reader : Nat} (hreader : reader < store.size)
    (name : Text) :
    (store.run [.get reader name]).2 = [.ok ((store.get? reader name).elim .nothing .atom)] := by
  rw [run, perform_of_ask hreader rfl]
  rfl

theorem Store.run_define_get {store : Store} {context reader : Nat}
    (hcontext : context < store.size) (hreader : reader < store.size) (name name' : Text)
    (value : Atom) :
    (store.run [.define context name (.atom value), .get reader name']).2 =
      [.ok .nothing,
        .ok (((store.define context name value).get? reader name').elim .nothing .atom)] := by
  have hdefine : store.perform (.define context name (.atom value)) =
      (store.define context name value, .ok .nothing) :=
    (performDefine_eq_ok_iff _ _ _ _ _ _).2 ⟨hcontext, value, rfl, rfl, rfl⟩
  have hthere : reader < (store.define context name value).size := by rwa [size_define]
  rw [run, hdefine]
  exact congrArg _ (run_get hthere name')

/-- After any session, a definition of a name in one context gives the name its value in every
context that sees the first one.  In every other context, and of every other name, the answer to
the question is the same as before. -/
theorem session_define_seen (steps : List Step) {context reader : Nat}
    (hcontext : context < (Store.after steps).size) (hreader : reader < (Store.after steps).size)
    (name name' : Text) (value : Atom) :
    ∃ before : Answer,
      session (steps ++ [.get reader name']) = session steps ++ [.ok before] ∧
      (name' = name ∧ (Store.after steps).Sees reader name context →
        session (steps ++ [.define context name (.atom value), .get reader name']) =
          session steps ++ [.ok .nothing, .ok (.atom value)]) ∧
      (¬(name' = name ∧ (Store.after steps).Sees reader name context) →
        session (steps ++ [.define context name (.atom value), .get reader name']) =
          session steps ++ [.ok .nothing, .ok before]) := by
  have hordered := Store.isOrdered_after steps
  refine ⟨_, (session_append _ _).trans (congrArg _ (Store.run_get hreader name')), ?_, ?_⟩
  · rintro ⟨rfl, hsees⟩
    rw [session_append, Store.run_define_get hcontext hreader,
      Store.get?_define_of_sees hordered hcontext value hsees, Option.elim_some]
  · intro hunseen
    rw [session_append, Store.run_define_get hcontext hreader,
      Store.get?_define_of_not_sees hordered hcontext value hunseen]

/-- A definition in the root is seen by a grandchild, but not by a child that binds the name. -/
theorem session_define_seen_of_grandchild :
    let steps : List Step := [.new [] .none, .child 0 [], .child 1 [],
      .child 0 [(['x'], .atom (.identifier ['a']))]]
    let define : Step := .define 0 ['x'] (.atom (.identifier ['b']))
    session (steps ++ [define, .get 2 ['x']]) =
        session steps ++ [.ok .nothing, .ok (.atom (.identifier ['b']))] ∧
      session (steps ++ [.get 3 ['x']]) = session steps ++ [.ok (.atom (.identifier ['a']))] ∧
      session (steps ++ [define, .get 3 ['x']]) =
        session steps ++ [.ok .nothing, .ok (.atom (.identifier ['a']))] := by
  intro steps define
  have hroot : 0 < (Store.after steps).size := by decide
  have hgrandchild : 2 < (Store.after steps).size := by decide
  have hchild : 3 < (Store.after steps).size := by decide
  have hsees : (Store.after steps).Sees 2 ['x'] 0 := ⟨2, by decide, by decide⟩
  have hunseen : ¬(Store.after steps).Sees 3 ['x'] 0 := by
    rw [Store.sees_iff]
    rintro (hself | ⟨hown, -⟩)
    · contradiction
    · exact absurd hown (by decide)
  obtain ⟨_, -, hnew, -⟩ :=
    session_define_seen steps hroot hgrandchild ['x'] ['x'] (.identifier ['b'])
  obtain ⟨before, hbefore, -, hold⟩ :=
    session_define_seen steps hroot hchild ['x'] ['x'] (.identifier ['b'])
  have hanswer : session (steps ++ [.get 3 ['x']]) =
      session steps ++ [.ok (.atom (.identifier ['a']))] := rfl
  rw [hanswer, List.append_cancel_left_eq] at hbefore
  obtain rfl := Except.ok.inj (List.cons.inj hbefore).1
  exact ⟨hnew ⟨rfl, hsees⟩, hanswer, hold fun ⟨_, hsees⟩ => hunseen hsees⟩

end Sexp
