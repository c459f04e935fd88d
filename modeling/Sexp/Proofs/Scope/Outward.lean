import Sexp.Proofs.Scope.Following
import Sexp.Proofs.Scope.Growth

/-!
# The way outward from a context

Depth and bindings can be found by loops that go from parent to parent and have nothing else
to stop them than the end of the way.  In every state that a session reaches they end,
because parents are older than their children; they count as many parents as the context is
deep, and find what the name is bound to.  Later steps make neither another parent nor
another depth for a context that there is.
-/

namespace Sexp

/-- A loop of which each turn gives the next state or the result ends with a result. -/
inductive EndsWith {σ ρ : Type} (turn : σ → σ ⊕ ρ) : σ → ρ → Prop
  | last {state : σ} {result : ρ} (hturn : turn state = .inr result) : EndsWith turn state result
  | next {state following : σ} {result : ρ} (hturn : turn state = .inl following)
      (hrest : EndsWith turn following result) : EndsWith turn state result

/-- A loop ends with one result at most. -/
theorem EndsWith.unique {σ ρ : Type} {turn : σ → σ ⊕ ρ} {state : σ} {result result' : ρ}
    (hends : EndsWith turn state result) (hends' : EndsWith turn state result') :
    result = result' := by
  induction hends with
  | last hturn =>
      cases hends' with
      | last hturn' => exact Sum.inr.inj (hturn.symm.trans hturn')
      | next hturn' _ => exact absurd (hturn.symm.trans hturn') Sum.inr_ne_inl
  | next hturn _ ih =>
      cases hends' with
      | last hturn' => exact absurd (hturn.symm.trans hturn') Sum.inl_ne_inr
      | next hturn' hrest' =>
          obtain rfl := Sum.inl.inj (hturn.symm.trans hturn')
          exact ih hrest'

theorem EndsWith.iff_eq {σ ρ : Type} {turn : σ → σ ⊕ ρ} {state : σ} {result : ρ}
    (hends : EndsWith turn state result) (result' : ρ) :
    EndsWith turn state result' ↔ result' = result := by
  constructor
  · intro hends'
    exact hends'.unique hends
  · rintro rfl
    exact hends

namespace Store

/-- A turn of the loop that counts the contexts on the way outward. -/
def countTurn (store : Store) : Nat × Option Nat → (Nat × Option Nat) ⊕ Nat
  | (count, none) => .inr count
  | (count, some number) => .inl (count + 1, store.parent? number)

/-- A turn of the loop that looks for a context that binds a name on the way outward. -/
def searchTurn (store : Store) (name : Text) : Option Nat → Option Nat ⊕ Option Atom
  | none => .inr none
  | some number =>
      match store.getOwn? number name with
      | some value => .inr (some value)
      | none => .inl (store.parent? number)

variable {store : Store}

theorem endsWith_countTurn (hordered : store.IsOrdered) (count number : Nat) :
    EndsWith store.countTurn (count, some number) (count + (store.depth number + 1)) := by
  induction number using hordered.wellFounded.induction generalizing count with
  | h number ih =>
      refine .next rfl ?_
      rw [depth_eq hordered number]
      cases hparent : store.parent? number with
      | none => exact .last rfl
      | some parent =>
          have hrest := ih parent hparent (count + 1)
          rwa [Nat.add_assoc, Nat.add_comm 1] at hrest

/-- From the parent of a context on, the loop counts as many contexts as it is deep. -/
theorem endsWith_countTurn_parent? (hordered : store.IsOrdered) (number : Nat) :
    EndsWith store.countTurn (0, store.parent? number) (store.depth number) := by
  rw [depth_eq hordered number]
  cases store.parent? number with
  | none => exact .last rfl
  | some parent =>
      have hcount := endsWith_countTurn hordered 0 parent
      rwa [Nat.zero_add] at hcount

theorem endsWith_searchTurn (hordered : store.IsOrdered) (name : Text) (number : Nat) :
    EndsWith (store.searchTurn name) (some number) (store.get? number name) := by
  induction number using hordered.wellFounded.induction with
  | h number ih =>
      rw [get?_eq_or hordered number]
      cases hown : store.getOwn? number name with
      | some value =>
          refine .last ?_
          rw [searchTurn, hown]
          rfl
      | none =>
          have hturn : store.searchTurn name (some number) = .inl (store.parent? number) := by
            rw [searchTurn, hown]
          refine .next hturn ?_
          cases hparent : store.parent? number with
          | none => exact .last rfl
          | some parent => exact ih parent hparent

/-- In an extended store the contexts that there were have the ancestors that they had. -/
theorem Extends.ancestor?_eq {later : Store} (hextends : later.Extends store)
    (hordered : store.IsOrdered) {number : Nat} (hnumber : number < store.size)
    (distance : Nat) : later.ancestor? distance number = store.ancestor? distance number := by
  induction distance generalizing number with
  | zero => rfl
  | succ distance ih =>
      rw [ancestor?, ancestor?, hextends.parent?_eq number hnumber]
      cases hparent : store.parent? number with
      | none => rfl
      | some parent => exact ih (Nat.lt_trans (hordered number parent hparent) hnumber)

theorem Extends.depth_eq {later : Store} (hextends : later.Extends store)
    (hordered : store.IsOrdered) (hlater : later.IsOrdered) {number : Nat}
    (hnumber : number < store.size) : later.depth number = store.depth number := by
  have hthere := Nat.lt_of_lt_of_le hnumber hextends.size_le
  have hlineage : later.lineage number = store.lineage number := by
    refine List.ext_getElem? fun distance => ?_
    rw [getElem?_lineage hlater hthere, getElem?_lineage hordered hnumber,
      hextends.ancestor?_eq hordered hnumber]
  rw [depth, depth, hlineage]

theorem isOrdered_after (steps : List Step) : (after steps).IsOrdered :=
  (follows_history steps).ordered

theorem extends_after_append (steps more : List Step) :
    (after (steps ++ more)).Extends (after steps) := by
  rw [after_append]
  exact Extends.run (after steps) more

theorem run_parent_depth {number : Nat} (hnumber : number < store.size) :
    (store.run [.parent number, .depth number]).2 =
      [.ok ((store.parent? number).elim .nothing .number), .ok (.number (store.depth number))] := by
  have hparent : store.perform (.parent number) = _ := perform_of_ask hnumber rfl
  have hdepth : store.perform (.depth number) = _ := perform_of_ask hnumber rfl
  simp only [run, hparent, hdepth]

end Store

/-- In every state that a session reaches the parents of contexts are older than the contexts,
so the way outward from a context meets no context twice and comes to a root, after as many
parents as the context is deep: none for a root, and one more than its parent for any other.
The loops that go outward by nothing but the parents end, the one with the depth and the other
with what the name is bound to.  And whatever steps follow, a context that there is keeps its
parent and its depth. -/
theorem session_chain_wellFounded (steps more : List Step) {number : Nat}
    (hnumber : number < (Store.after steps).size) :
    let store := Store.after steps
    (WellFounded fun parent child => store.parent? child = some parent) ∧
      (∀ parent, store.parent? number = some parent → parent < number) ∧
      (∀ distance distance' ancestor, store.ancestor? distance number = some ancestor →
        store.ancestor? distance' number = some ancestor → distance = distance') ∧
      (∃ root, store.ancestor? (store.depth number) number = some root ∧
        store.parent? root = none) ∧
      store.depth number = (store.parent? number).elim 0 (store.depth · + 1) ∧
      (∀ count, EndsWith store.countTurn (0, store.parent? number) count ↔
        count = store.depth number) ∧
      (∀ name found, EndsWith (store.searchTurn name) (some number) found ↔
        found = store.get? number name) ∧
      session (steps ++ more ++ [.parent number, .depth number]) =
        session (steps ++ more) ++
          [.ok ((store.parent? number).elim .nothing .number),
            .ok (.number (store.depth number))] := by
  intro store
  have hordered := Store.isOrdered_after steps
  have hextends := Store.extends_after_append steps more
  have hdepth := hextends.depth_eq hordered (Store.isOrdered_after (steps ++ more)) hnumber
  refine ⟨hordered.wellFounded, hordered number, ?_, Store.exists_ancestor?_depth hordered number,
    Store.depth_eq hordered number, ?_, ?_, ?_⟩
  · exact fun distance distance' ancestor => hordered.ancestor?_injective
  · exact (Store.endsWith_countTurn_parent? hordered number).iff_eq
  · exact fun name => (Store.endsWith_searchTurn hordered name number).iff_eq
  · have hthere := Nat.lt_of_lt_of_le hnumber hextends.size_le
    rw [session_append, Store.run_parent_depth hthere, hextends.parent?_eq number hnumber, hdepth]

/-- A context that fails takes no place on the way outward, and a child that is made later is
no reason for the depth to change. -/
theorem session_chain_wellFounded_of_grandchild :
    let steps : List Step :=
      [.new [] .none, .child 0 [], .new [(['x'], .list [])] (.context 1), .child 1 []]
    let more : List Step := [.defineToken 0 ['x'] ['a'], .child 2 [], .child 5 []]
    2 < (Store.after steps).size ∧
      EndsWith (Store.after steps).countTurn (0, some 1) 2 ∧
      session (steps ++ more ++ [.parent 2, .depth 2]) =
        session (steps ++ more) ++ [.ok (.number 1), .ok (.number 2)] := by
  intro steps more
  have hnumber : 2 < (Store.after steps).size := by decide
  obtain ⟨-, -, -, -, -, hcount, -, hsession⟩ := session_chain_wellFounded steps more hnumber
  exact ⟨hnumber, (hcount 2).2 rfl, hsession⟩

end Sexp
