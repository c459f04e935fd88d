import Sexp.Proofs.Scope.Store

/-!
# Lineages and ancestors

In a store whose parents are older than their children the relation of a parent to its child
is well founded, and whatever is true of a context if it is true of its parent is true of all
contexts.  By this induction the ancestor at a distance is the member of the lineage at that
place, the last of them is a root, and both what a name is bound to and the depth are those
of the parent, unless the context decides them itself.
-/

namespace Sexp

namespace Store

/-- The context that is so many parents away. -/
def ancestor? (store : Store) : Nat → Nat → Option Nat
  | 0, number => some number
  | distance + 1, number => (store.parent? number).bind (store.ancestor? distance)

variable {store : Store}

/-- From parent to parent one comes to an end. -/
theorem IsOrdered.wellFounded (hordered : store.IsOrdered) :
    WellFounded fun parent number => store.parent? number = some parent :=
  Subrelation.wf (hordered _ _) Nat.lt_wfRel.wf

/-- Each of the ancestors is older than those before it. -/
theorem IsOrdered.ancestor?_add_le (hordered : store.IsOrdered) {distance number ancestor : Nat}
    (hancestor : store.ancestor? distance number = some ancestor) :
    ancestor + distance ≤ number := by
  induction distance generalizing number with
  | zero => exact Nat.le_of_eq (Option.some.inj hancestor).symm
  | succ distance ih =>
      obtain ⟨parent, hparent, hrest⟩ := Option.bind_eq_some_iff.1 hancestor
      have hle := ih hrest
      have hlt := hordered number parent hparent
      omega

theorem ancestor?_add (store : Store) (distance further number : Nat) :
    store.ancestor? (distance + further) number =
      (store.ancestor? distance number).bind (store.ancestor? further) := by
  induction distance generalizing number with
  | zero => rw [Nat.zero_add, ancestor?, Option.bind_some]
  | succ distance ih =>
      rw [Nat.succ_add, ancestor?, ancestor?, Option.bind_assoc]
      exact congrArg _ (funext ih)

/-- Ancestors farther away are older. -/
theorem IsOrdered.ancestor?_lt (hordered : store.IsOrdered)
    {distance distance' number ancestor ancestor' : Nat} (hlt : distance < distance')
    (hancestor : store.ancestor? distance number = some ancestor)
    (hancestor' : store.ancestor? distance' number = some ancestor') : ancestor' < ancestor := by
  obtain ⟨further, rfl⟩ := Nat.exists_eq_add_of_lt hlt
  rw [Nat.add_assoc, ancestor?_add, hancestor, Option.bind_some] at hancestor'
  have hle := hordered.ancestor?_add_le hancestor'
  omega

/-- No context is met twice on the way outward. -/
theorem IsOrdered.ancestor?_injective (hordered : store.IsOrdered)
    {distance distance' number ancestor : Nat}
    (hancestor : store.ancestor? distance number = some ancestor)
    (hancestor' : store.ancestor? distance' number = some ancestor) : distance = distance' := by
  rcases Nat.lt_trichotomy distance distance' with hlt | heq | hgt
  · exact absurd (hordered.ancestor?_lt hlt hancestor hancestor') (Nat.lt_irrefl ancestor)
  · exact heq
  · exact absurd (hordered.ancestor?_lt hgt hancestor' hancestor) (Nat.lt_irrefl ancestor)

theorem lineageIn_eq_nil {contexts : List Context} {number : Nat}
    (hnumber : contexts.length ≤ number) : lineageIn contexts number = [] := by
  induction contexts with
  | nil => rfl
  | cons newest older ih =>
      rw [List.length_cons] at hnumber
      rw [lineageIn, if_neg (by omega)]
      exact ih (by omega)

theorem lineage_eq_nil {number : Nat} (hnumber : store.size ≤ number) :
    store.lineage number = [] :=
  lineageIn_eq_nil hnumber

/-- The members of a lineage are the ancestors, each at the place of its distance. -/
theorem getElem?_lineage (hordered : store.IsOrdered) {number : Nat}
    (hnumber : number < store.size) (distance : Nat) :
    (store.lineage number)[distance]? = store.ancestor? distance number := by
  induction distance generalizing number with
  | zero =>
      rw [lineage_eq hordered hnumber]
      rfl
  | succ distance ih =>
      rw [lineage_eq hordered hnumber, List.getElem?_cons_succ, ancestor?]
      cases hparent : store.parent? number with
      | none => rfl
      | some parent => exact ih (Nat.lt_trans (hordered number parent hparent) hnumber)

/-- A name is bound to what the context itself binds it to, or else to what it is bound to
in the parent. -/
theorem get?_eq_or (hordered : store.IsOrdered) (number : Nat) (name : Text) :
    store.get? number name =
      (store.getOwn? number name).or ((store.parent? number).bind (store.get? · name)) := by
  by_cases hnumber : number < store.size
  · rw [get?, lineage_eq hordered hnumber, List.findSome?_cons]
    cases store.getOwn? number name with
    | some value => rfl
    | none => cases store.parent? number <;> rfl
  · have hnew := Nat.le_of_not_lt hnumber
    rw [get?, lineage_eq_nil hnew, getOwn?_eq_none hnew, parent?_eq_none hnew]
    rfl

/-- A root has depth zero, and a child is one deeper than its parent. -/
theorem depth_eq (hordered : store.IsOrdered) (number : Nat) :
    store.depth number = (store.parent? number).elim 0 (store.depth · + 1) := by
  by_cases hnumber : number < store.size
  · rw [depth, lineage_eq hordered hnumber]
    cases hparent : store.parent? number with
    | none => rfl
    | some parent =>
        have hthere := Nat.lt_trans (hordered number parent hparent) hnumber
        simp [depth, lineage_eq hordered hthere]
  · have hnew := Nat.le_of_not_lt hnumber
    rw [depth, lineage_eq_nil hnew, parent?_eq_none hnew]
    rfl

/-- As far away as a context is deep there is a root. -/
theorem exists_ancestor?_depth (hordered : store.IsOrdered) (number : Nat) :
    ∃ root, store.ancestor? (store.depth number) number = some root ∧
      store.parent? root = none := by
  induction number using hordered.wellFounded.induction with
  | h number ih =>
      rw [depth_eq hordered number]
      cases hparent : store.parent? number with
      | none => exact ⟨number, rfl, hparent⟩
      | some parent =>
          obtain ⟨root, hroot, hlast⟩ := ih parent hparent
          refine ⟨root, ?_, hlast⟩
          rw [Option.elim_some, ancestor?, hparent, Option.bind_some, hroot]

end Store

end Sexp
