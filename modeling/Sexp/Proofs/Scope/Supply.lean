import Sexp.Proofs.Scope.Outward

/-!
# Where the value of a name comes from

The value that a name has as seen from a context is supplied by the nearest context outward
that binds the name.  Ancestors stay the same and what they bind stays bound, so a name that
has a value keeps having one, and its supplier never moves outward.  It moves inward exactly
when the name is defined in a context that is nearer than the supplier.
-/

namespace Sexp

namespace Store

/-- Whether the context that is so many parents away binds a name itself. -/
def bindsAt (store : Store) (number : Nat) (name : Text) (distance : Nat) : Bool :=
  (store.ancestor? distance number).any fun ancestor => (store.getOwn? ancestor name).isSome

/-- How many parents away the nearest context is that binds a name.  No more parents can be
passed than there are contexts. -/
def supplyDistance? (store : Store) (number : Nat) (name : Text) : Option Nat :=
  (List.range store.size).find? (store.bindsAt number name)

variable {store : Store} {number : Nat} {name : Text}

theorem bindsAt_iff (store : Store) (number : Nat) (name : Text) (distance : Nat) :
    store.bindsAt number name distance = true ↔
      ∃ ancestor, store.ancestor? distance number = some ancestor ∧
        (store.getOwn? ancestor name).isSome := by
  simp [bindsAt, Option.any_eq_true]

theorem bindsAt_zero (store : Store) (number : Nat) (name : Text) :
    store.bindsAt number name 0 = (store.getOwn? number name).isSome := rfl

theorem bindsAt_succ {parent : Nat} (hparent : store.parent? number = some parent)
    (distance : Nat) :
    store.bindsAt number name (distance + 1) = store.bindsAt parent name distance := by
  rw [bindsAt, ancestor?, hparent, Option.bind_some, bindsAt]

theorem lt_size_of_bindsAt (hordered : store.IsOrdered) (hnumber : number < store.size)
    {distance : Nat} (hbinds : store.bindsAt number name distance = true) :
    distance < store.size := by
  obtain ⟨ancestor, hancestor, -⟩ := (bindsAt_iff _ _ _ _).1 hbinds
  have hle := hordered.ancestor?_add_le hancestor
  omega

theorem supplyDistance?_eq_some_iff (hordered : store.IsOrdered) (hnumber : number < store.size)
    (distance : Nat) :
    store.supplyDistance? number name = some distance ↔
      store.bindsAt number name distance = true ∧
        ∀ nearer < distance, store.bindsAt number name nearer = false := by
  simp only [supplyDistance?, List.find?_range_eq_some, List.mem_range, Bool.not_eq_true']
  constructor
  · rintro ⟨hbinds, -, hnearer⟩
    exact ⟨hbinds, hnearer⟩
  · rintro ⟨hbinds, hnearer⟩
    exact ⟨hbinds, lt_size_of_bindsAt hordered hnumber hbinds, hnearer⟩

/-- Where no nearer context binds a name, it is bound to what it is bound to farther out. -/
theorem get?_eq_of_ancestor? (hordered : store.IsOrdered) {distance ancestor : Nat}
    (hancestor : store.ancestor? distance number = some ancestor)
    (hnearer : ∀ nearer < distance, store.bindsAt number name nearer = false) :
    store.get? number name = store.get? ancestor name := by
  induction distance generalizing number with
  | zero => rw [Option.some.inj hancestor]
  | succ distance ih =>
      obtain ⟨parent, hparent, hrest⟩ := Option.bind_eq_some_iff.1 hancestor
      have hown : store.getOwn? number name = none := by
        simpa [bindsAt_zero] using hnearer 0 (Nat.succ_pos distance)
      rw [get?_eq_or hordered number, hown, hparent, Option.none_or, Option.bind_some]
      refine ih hrest fun nearer hlt => ?_
      rw [← bindsAt_succ hparent]
      exact hnearer (nearer + 1) (Nat.succ_lt_succ hlt)

/-- The nearest context that binds a name supplies its value. -/
theorem get?_of_supplyDistance? (hordered : store.IsOrdered) (hnumber : number < store.size)
    {distance : Nat} (hsupply : store.supplyDistance? number name = some distance) :
    ∃ supplier value, store.ancestor? distance number = some supplier ∧
      store.getOwn? supplier name = some value ∧ store.get? number name = some value := by
  obtain ⟨hbinds, hnearer⟩ := (supplyDistance?_eq_some_iff hordered hnumber distance).1 hsupply
  obtain ⟨supplier, hsupplier, hown⟩ := (bindsAt_iff _ _ _ _).1 hbinds
  obtain ⟨value, hvalue⟩ := Option.isSome_iff_exists.1 hown
  refine ⟨supplier, value, hsupplier, hvalue, ?_⟩
  rw [get?_eq_of_ancestor? hordered hsupplier hnearer, get?_eq_or hordered supplier, hvalue]
  rfl

theorem exists_bindsAt (hordered : store.IsOrdered)
    (hbound : (store.get? number name).isSome) :
    ∃ distance, store.bindsAt number name distance = true := by
  induction number using hordered.wellFounded.induction with
  | h number ih =>
      rw [get?_eq_or hordered number] at hbound
      cases hown : store.getOwn? number name with
      | some value => exact ⟨0, (bindsAt_iff _ _ _ _).2 ⟨number, rfl, by rw [hown]; rfl⟩⟩
      | none =>
          rw [hown, Option.none_or] at hbound
          cases hparent : store.parent? number with
          | none => simp [hparent] at hbound
          | some parent =>
              rw [hparent, Option.bind_some] at hbound
              obtain ⟨distance, hbinds⟩ := ih parent hparent hbound
              exact ⟨distance + 1, (bindsAt_succ hparent distance).trans hbinds⟩

theorem exists_supplyDistance? (hordered : store.IsOrdered) (hnumber : number < store.size)
    {distance : Nat} (hbinds : store.bindsAt number name distance = true) :
    ∃ nearest ≤ distance, store.supplyDistance? number name = some nearest := by
  have hlt := lt_size_of_bindsAt hordered hnumber hbinds
  have hfound : (store.supplyDistance? number name).isSome :=
    List.find?_isSome.2 ⟨distance, List.mem_range.2 hlt, hbinds⟩
  obtain ⟨nearest, hnearest⟩ := Option.isSome_iff_exists.1 hfound
  refine ⟨nearest, Nat.le_of_not_lt fun hless => ?_, hnearest⟩
  have hfalse := ((supplyDistance?_eq_some_iff hordered hnumber nearest).1 hnearest).2 _ hless
  rw [hfalse] at hbinds
  contradiction

/-- Where a store has all bindings of an earlier one, and new ones at some distances, the
supplier of a name is at most as far away as before.  It is nearer if and only if there is a
new binding at a distance nearer than the earlier supplier. -/
theorem supplyDistance?_of_bindsAt_iff {later : Store} (hordered : store.IsOrdered)
    (hlater : later.IsOrdered) (hnumber : number < store.size) (hthere : number < later.size)
    {isNew : Nat → Prop}
    (hbinds : ∀ distance, later.bindsAt number name distance = true ↔
      store.bindsAt number name distance = true ∨ isNew distance)
    {distance : Nat} (hsupply : store.supplyDistance? number name = some distance) :
    ∃ distance' ≤ distance, later.supplyDistance? number name = some distance' ∧
      (distance' < distance ↔ ∃ nearer < distance, isNew nearer) := by
  obtain ⟨hearlier, hnearer⟩ := (supplyDistance?_eq_some_iff hordered hnumber distance).1 hsupply
  obtain ⟨distance', hle, hsupply'⟩ :=
    exists_supplyDistance? hlater hthere ((hbinds distance).2 (.inl hearlier))
  refine ⟨distance', hle, hsupply', ?_, ?_⟩
  · -- At its distance the new supplier did not bind the name before.
    intro hlt
    have hbinds' := ((supplyDistance?_eq_some_iff hlater hthere distance').1 hsupply').1
    rcases (hbinds distance').1 hbinds' with hold | hnew
    · rw [hnearer distance' hlt] at hold
      contradiction
    · exact ⟨distance', hlt, hnew⟩
  · rintro ⟨nearer, hlt, hnew⟩
    obtain ⟨nearest, hnearest, hfound⟩ :=
      exists_supplyDistance? hlater hthere ((hbinds nearer).2 (.inr hnew))
    obtain rfl := Option.some.inj (hsupply'.symm.trans hfound)
    exact Nat.lt_of_le_of_lt hnearest hlt

theorem lt_size_of_contains (hbound : store.contains number name = true) :
    number < store.size := by
  refine Nat.lt_of_not_le fun hnew => ?_
  rw [contains, get?, lineage_eq_nil hnew] at hbound
  contradiction

end Store

/-- The history of a session begins with that of its first steps. -/
theorem history_append (steps more : List Step) :
    history (steps ++ more) = history steps ++ more.zip ((Store.after steps).run more).2 := by
  rw [history, history, session_append, List.zip_append (length_session steps).symm]

theorem drop_history_append (steps more : List Step) :
    (history (steps ++ more)).drop steps.length = more.zip ((Store.after steps).run more).2 := by
  have hlength : (history steps).length = steps.length := by
    rw [history, List.length_zip, length_session, Nat.min_self]
  rw [history_append, ← hlength, List.drop_left]

/-- After some steps more, the context that is so many parents away binds a name if it did so
before, or if one of the steps has defined the name in it. -/
theorem Store.bindsAt_after_append (steps more : List Step) {number : Nat}
    (hnumber : number < (after steps).size) (name : Text) (distance : Nat) :
    (after (steps ++ more)).bindsAt number name distance = true ↔
      (after steps).bindsAt number name distance = true ∨
        ∃ entry ∈ (history (steps ++ more)).drop steps.length, ∃ target,
          (after steps).ancestor? distance number = some target ∧
            History.Defines entry target name := by
  have hordered := isOrdered_after steps
  rw [bindsAt_iff, bindsAt_iff,
    (extends_after_append steps more).ancestor?_eq hordered hnumber, drop_history_append,
    after_append]
  cases hancestor : (after steps).ancestor? distance number with
  | none => simp
  | some ancestor =>
      have hle := hordered.ancestor?_add_le hancestor
      have hthere : ancestor < (after steps).size := by omega
      simpa using isSome_getOwn?_run hthere more name

/-- If a name is bound as seen from a context, it stays bound: whatever steps follow, the
questions about it are answered with the value that it has in the context that supplies it,
and looking it up is never refused.  The supplier is never more parents away than before.
It is fewer parents away exactly if one of the steps was an accepted definition of the name
in an ancestor nearer than the earlier supplier. -/
theorem session_bound_inward (steps more : List Step) {context : Nat} {name : Text}
    (hbound : (Store.after steps).contains context name = true) :
    let store := Store.after steps
    let later := Store.after (steps ++ more)
    ∃ distance distance' supplier value,
      store.supplyDistance? context name = some distance ∧
      later.supplyDistance? context name = some distance' ∧
      later.ancestor? distance' context = some supplier ∧
      later.getOwn? supplier name = some value ∧
      session (steps ++ more ++ [.get context name, .contains context name,
          .lookup context name, .resolve context (.atom (.identifier name))]) =
        session (steps ++ more) ++ [.ok (.atom value), .ok (.truth true), .ok (.atom value),
          .ok (.node (.atom value))] ∧
      distance' ≤ distance ∧
      (distance' < distance ↔
        ∃ entry ∈ (history (steps ++ more)).drop steps.length, ∃ target nearer,
          History.Defines entry target name ∧ nearer < distance ∧
            store.ancestor? nearer context = some target) := by
  intro store later
  have hordered : store.IsOrdered := Store.isOrdered_after steps
  have hlater : later.IsOrdered := Store.isOrdered_after (steps ++ more)
  have hcontext : context < store.size := Store.lt_size_of_contains hbound
  have hthere : context < later.size :=
    Nat.lt_of_lt_of_le hcontext (Store.extends_after_append steps more).size_le
  obtain ⟨somewhere, hsomewhere⟩ := Store.exists_bindsAt hordered hbound
  obtain ⟨distance, -, hdistance⟩ := Store.exists_supplyDistance? hordered hcontext hsomewhere
  obtain ⟨distance', hle, hdistance', hinward⟩ := Store.supplyDistance?_of_bindsAt_iff hordered
    hlater hcontext hthere (Store.bindsAt_after_append steps more hcontext name) hdistance
  obtain ⟨supplier, value, hsupplier, hown, hget⟩ :=
    Store.get?_of_supplyDistance? hlater hthere hdistance'
  refine ⟨distance, distance', supplier, value, hdistance, hdistance', hsupplier, hown, ?_, hle,
    hinward.trans ⟨?_, ?_⟩⟩
  · rw [session_append, Store.run_questions hthere, hget]
  · rintro ⟨nearer, hlt, entry, hentry, target, htarget, hdefines⟩
    exact ⟨entry, hentry, target, nearer, hdefines, hlt, htarget⟩
  · rintro ⟨entry, hentry, target, nearer, hdefines, hlt, htarget⟩
    exact ⟨nearer, hlt, entry, hentry, target, htarget, hdefines⟩

/-- Of three definitions the refused one and the one in the supplier itself leave the supplier
where it is, and the one in the parent moves it inward. -/
theorem session_bound_inward_of_grandchild :
    let steps : List Step :=
      [.new [(['x'], .atom (.identifier ['a']))] .none, .child 0 [], .child 1 []]
    let more : List Step :=
      [.define 2 ['x'] (.list []), .defineToken 1 ['x'] ['b'], .defineToken 0 ['x'] ['c']]
    (Store.after steps).contains 2 ['x'] = true ∧
      (Store.after steps).supplyDistance? 2 ['x'] = some 2 ∧
      (Store.after (steps ++ more)).supplyDistance? 2 ['x'] = some 1 ∧
      session (steps ++ more ++ [.get 2 ['x'], .contains 2 ['x'], .lookup 2 ['x'],
          .resolve 2 (.atom (.identifier ['x']))]) =
        session (steps ++ more) ++ [.ok (.atom (.identifier ['b'])), .ok (.truth true),
          .ok (.atom (.identifier ['b'])), .ok (.node (.atom (.identifier ['b'])))] := by
  intro steps more
  have hbound : (Store.after steps).contains 2 ['x'] = true := by decide
  have hbefore : (Store.after steps).supplyDistance? 2 ['x'] = some 2 := by decide
  have hafter : (Store.after (steps ++ more)).supplyDistance? 2 ['x'] = some 1 := by decide
  obtain ⟨distance, distance', supplier, value, hdistance, hdistance', hsupplier, hown, hsession,
    -, -⟩ := session_bound_inward steps more hbound
  refine ⟨hbound, hbefore, hafter, ?_⟩
  obtain rfl := Option.some.inj (hdistance'.symm.trans hafter)
  have hone : (Store.after (steps ++ more)).ancestor? 1 2 = some 1 := by decide
  obtain rfl := Option.some.inj (hsupplier.symm.trans hone)
  have hvalue : (Store.after (steps ++ more)).getOwn? 1 ['x'] = some (.identifier ['b']) := rfl
  obtain rfl := Option.some.inj (hown.symm.trans hvalue)
  exact hsession

end Sexp
