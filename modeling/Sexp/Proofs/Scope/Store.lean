import Sexp.Scope.Store

/-!
# What a store holds

Making a context adds one and leaves the others alone; binding a name changes one name
of one context.  A parent has a smaller number than its children, which is what the
operations preserve, and so the lineage of a context is the context followed by the
lineage of its parent.
-/

namespace Sexp

namespace Store

theorem contextIn_eq_none {contexts : List Context} {number : Nat}
    (hnumber : contexts.length ≤ number) : contextIn contexts number = none := by
  induction contexts with
  | nil => rfl
  | cons newest older ih =>
      rw [List.length_cons] at hnumber
      rw [contextIn, if_neg (by omega)]
      exact ih (by omega)

theorem contextIn_isSome {contexts : List Context} {number : Nat}
    (hnumber : number < contexts.length) : (contextIn contexts number).isSome := by
  induction contexts with
  | nil => contradiction
  | cons newest older ih =>
      rw [contextIn]
      split
      · rfl
      · apply ih
        rw [List.length_cons] at hnumber
        omega

theorem contextIn_rebindIn (bindings : Bindings) (contexts : List Context)
    (number other : Nat) :
    contextIn (rebindIn bindings contexts number) other =
      (contextIn contexts other).map fun context =>
        if other = number then ⟨bindings, context.parent⟩ else context := by
  induction contexts with
  | nil => rfl
  | cons newest older ih =>
      by_cases hnumber : number = older.length
      · by_cases hother : other = older.length
        · simp [rebindIn, contextIn, hnumber, hother]
        · have hne : other ≠ number := by omega
          rw [rebindIn, if_pos hnumber, contextIn, contextIn, if_neg hother, if_neg hother]
          simp [hne]
      · rw [rebindIn, if_neg hnumber, contextIn, contextIn, length_rebindIn]
        split
        · next hother =>
          have hne : other ≠ number := by omega
          simp [hne]
        · exact ih

/-- Lists of contexts are the same if they have as many contexts, and the same ones by number. -/
theorem eq_of_contextIn_eq {contexts contexts' : List Context}
    (hlength : contexts.length = contexts'.length)
    (hsame : ∀ number, contextIn contexts number = contextIn contexts' number) :
    contexts = contexts' := by
  induction contexts generalizing contexts' with
  | nil => exact (List.length_eq_zero_iff.1 hlength.symm).symm
  | cons newest older ih =>
      obtain ⟨newest', older', rfl⟩ := List.exists_cons_of_length_eq_add_one hlength.symm
      have holder : older.length = older'.length := Nat.succ.inj hlength
      have hnewest := hsame older.length
      rw [contextIn, contextIn, if_pos rfl, if_pos holder] at hnewest
      obtain rfl := Option.some.inj hnewest
      rw [ih holder]
      intro number
      have hnumber := hsame number
      rw [contextIn, contextIn, ← holder] at hnumber
      split at hnumber
      · next hlast =>
        -- Neither of the older parts has a context of the newest number.
        rw [contextIn_eq_none (Nat.le_of_eq hlast.symm),
          contextIn_eq_none (Nat.le_of_eq (holder.symm.trans hlast.symm))]
      · exact hnumber

theorem context?_create (store : Store) (bindings : Bindings) (parent : Option Nat)
    (number : Nat) :
    (store.create bindings parent).context? number =
      if number = store.size then some ⟨bindings, parent⟩ else store.context? number :=
  rfl

theorem context?_rebind (store : Store) (number other : Nat) (bindings : Bindings) :
    (store.rebind number bindings).context? other =
      (store.context? other).map fun context =>
        if other = number then ⟨bindings, context.parent⟩ else context :=
  contextIn_rebindIn bindings store.newestFirst number other

theorem context?_define (store : Store) (number other : Nat) (name : Text) (value : Atom) :
    (store.define number name value).context? other =
      (store.context? other).map fun context =>
        if other = number then
          { context with bindings := context.bindings.insert name value }
        else context := by
  rw [define, context?_rebind]
  refine Option.map_congr fun context hcontext => ?_
  split
  · next heq =>
    rw [← heq, bindings, hcontext]
    rfl
  · rfl

/-- Stores are the same if they have as many contexts, and the same ones by number. -/
theorem ext_context? {store store' : Store} (hsize : store.size = store'.size)
    (hsame : ∀ number, store.context? number = store'.context? number) : store = store' :=
  congrArg Store.mk (eq_of_contextIn_eq hsize hsame)

/-- A context that is given the bindings that it has stays as it is. -/
theorem rebind_bindings (store : Store) (number : Nat) :
    store.rebind number (store.bindings number) = store := by
  refine ext_context? (size_rebind store number _) fun other => ?_
  rw [context?_rebind]
  cases hcontext : store.context? other with
  | none => rfl
  | some context =>
      rw [Option.map_some]
      split
      · next heq =>
        rw [← heq, bindings, hcontext]
        rfl
      · rfl

theorem context?_eq_none {store : Store} {number : Nat} (hnumber : store.size ≤ number) :
    store.context? number = none :=
  contextIn_eq_none hnumber

theorem getOwn?_eq (store : Store) (number : Nat) (name : Text) :
    store.getOwn? number name =
      (store.context? number).bind fun context => context.bindings.get? name := by
  rw [getOwn?, bindings]
  cases store.context? number <;> rfl

theorem getOwn?_eq_none {store : Store} {number : Nat} (hnumber : store.size ≤ number)
    (name : Text) : store.getOwn? number name = none := by
  rw [getOwn?_eq, context?_eq_none hnumber]
  rfl

theorem parent?_eq_none {store : Store} {number : Nat} (hnumber : store.size ≤ number) :
    store.parent? number = none := by
  rw [parent?, context?_eq_none hnumber]
  rfl

theorem getOwn?_create (store : Store) (bindings : Bindings) (parent : Option Nat)
    (number : Nat) (name : Text) :
    (store.create bindings parent).getOwn? number name =
      if number = store.size then bindings.get? name else store.getOwn? number name := by
  rw [getOwn?_eq, getOwn?_eq, context?_create]
  split <;> rfl

theorem parent?_create (store : Store) (bindings : Bindings) (parent : Option Nat)
    (number : Nat) :
    (store.create bindings parent).parent? number =
      if number = store.size then parent else store.parent? number := by
  rw [parent?, parent?, context?_create]
  split <;> rfl

/-- Binding a name changes what it is bound to in one context. -/
theorem getOwn?_define {store : Store} {number : Nat} (hnumber : number < store.size)
    (other : Nat) (name name' : Text) (value : Atom) :
    (store.define number name value).getOwn? other name' =
      if other = number ∧ name' = name then some value else store.getOwn? other name' := by
  rw [getOwn?_eq, getOwn?_eq, context?_define]
  by_cases hother : other = number
  · obtain ⟨context, hcontext⟩ := Option.isSome_iff_exists.1 (contextIn_isSome hnumber)
    have hfound : store.context? number = some context := hcontext
    simp [hother, hfound, Bindings.get?_insert]
  · simp [hother]

@[simp] theorem parent?_define (store : Store) (number other : Nat) (name : Text)
    (value : Atom) : (store.define number name value).parent? other = store.parent? other := by
  rw [parent?, parent?, context?_define]
  cases store.context? other with
  | none => rfl
  | some context =>
      rw [Option.map_some, Option.bind_some, Option.bind_some]
      split <;> rfl

/-- Every parent was made before its children. -/
def IsOrdered (store : Store) : Prop :=
  ∀ number parent, store.parent? number = some parent → parent < number

theorem isOrdered_empty : empty.IsOrdered := by
  intro number parent hparent
  contradiction

theorem IsOrdered.create {store : Store} (hordered : store.IsOrdered) (bindings : Bindings)
    {parent : Option Nat} (hparent : ∀ number ∈ parent, number < store.size) :
    (store.create bindings parent).IsOrdered := by
  intro number older holder
  rw [parent?_create] at holder
  split at holder
  · next heq =>
    rw [heq]
    exact hparent older holder
  · exact hordered number older holder

theorem IsOrdered.of_create {store : Store} {bindings : Bindings} {parent : Option Nat}
    (hordered : (store.create bindings parent).IsOrdered) :
    store.IsOrdered ∧ ∀ number ∈ parent, number < store.size := by
  constructor
  · intro number older holder
    by_cases hnumber : number < store.size
    · apply hordered number older
      rw [parent?_create, if_neg (Nat.ne_of_lt hnumber)]
      exact holder
    · rw [parent?_eq_none (Nat.le_of_not_lt hnumber)] at holder
      contradiction
  · intro number hnumber
    apply hordered store.size number
    rw [parent?_create, if_pos rfl]
    exact hnumber

theorem IsOrdered.define {store : Store} (hordered : store.IsOrdered) (number : Nat)
    (name : Text) (value : Atom) : (store.define number name value).IsOrdered := by
  intro other parent hparent
  rw [parent?_define] at hparent
  exact hordered other parent hparent

theorem length_lineageIn_le (contexts : List Context) (number : Nat) :
    (lineageIn contexts number).length ≤ contexts.length := by
  induction contexts generalizing number with
  | nil => exact Nat.le_refl 0
  | cons newest older ih =>
      rw [lineageIn, List.length_cons]
      split
      · cases newest.parent with
        | none => simp
        | some parent => simpa using ih parent
      · exact Nat.le_succ_of_le (ih number)

theorem length_lineage_le (store : Store) (number : Nat) :
    (store.lineage number).length ≤ store.size :=
  length_lineageIn_le store.newestFirst number

theorem lineage_create (store : Store) (bindings : Bindings) (parent : Option Nat)
    (number : Nat) :
    (store.create bindings parent).lineage number =
      if number = store.size then number :: parent.elim [] store.lineage
      else store.lineage number := by
  show lineageIn (⟨bindings, parent⟩ :: store.newestFirst) number = _
  rw [lineageIn]
  cases parent <;> rfl

/-- The lineage of a context is the context, followed by the lineage of its parent. -/
theorem lineage_eq {store : Store} (hordered : store.IsOrdered) {number : Nat}
    (hnumber : number < store.size) :
    store.lineage number = number :: (store.parent? number).elim [] store.lineage := by
  obtain ⟨contexts⟩ := store
  induction contexts generalizing number with
  | nil => contradiction
  | cons newest older ih =>
      obtain ⟨bindings, parent⟩ := newest
      obtain ⟨holder, hparent⟩ := IsOrdered.of_create hordered
      -- The lineage of a parent does not change when a context is made.
      have hsame : ∀ link : Option Nat, (∀ parent ∈ link, parent < size ⟨older⟩) →
          link.elim [] (create ⟨older⟩ bindings parent).lineage =
            link.elim [] (lineage ⟨older⟩) := by
        intro link hlink
        cases link with
        | none => rfl
        | some parent' =>
            have hlt := hlink parent' rfl
            exact (lineage_create _ _ _ _).trans (if_neg (Nat.ne_of_lt hlt))
      show (create ⟨older⟩ bindings parent).lineage number =
        number :: ((create ⟨older⟩ bindings parent).parent? number).elim []
          (create ⟨older⟩ bindings parent).lineage
      rw [lineage_create, parent?_create]
      split
      · rw [hsame parent hparent]
      · next hne =>
        have hlt : number < size ⟨older⟩ :=
          Nat.lt_of_le_of_ne (Nat.le_of_lt_succ hnumber) hne
        rw [ih holder hlt, hsame]
        intro parent' hparent'
        exact Nat.lt_trans (holder number parent' hparent') hlt

end Store

end Sexp
