import Sexp.Proofs.Scope.History
import Sexp.Proofs.Scope.Lineage

/-!
# Stores follow histories

A store follows a history when the two say the same about every context: what it binds
itself, and which parent it has.  Every step, accepted or refused, keeps this so, and
therefore the answers at the end of a session are those that its history gives.
-/

namespace Sexp

/-- Looking up the places of a list one after the other gives its first elements. -/
theorem filterMap_getElem?_range {α : Type} (items : List α) (count : Nat) :
    (List.range count).filterMap (items[·]?) = items.take count := by
  induction count with
  | zero => rfl
  | succ count ih =>
      rw [List.range_succ, List.filterMap_append, ih, List.take_add_one]
      rfl

namespace Store

/-- A store follows a history when the two say the same about every context. -/
structure Follows (store : Store) (h : History) : Prop where
  ordered : store.IsOrdered
  own : ∀ context name,
    store.getOwn? context name = (h.lastBinding? context name).map (·.given.value)
  parent : ∀ context, store.parent? context = h.parent? context
  size_le : store.size ≤ h.length

namespace Follows

variable {store : Store} {h : History}

theorem empty : Store.empty.Follows [] where
  ordered := isOrdered_empty
  own := fun _ _ => rfl
  parent := fun _ => rfl
  size_le := Nat.le_refl 0

/-- A step that has neither bound a name nor made a context is as good as none. -/
theorem append_idle (hfollows : store.Follows h) {entry : Step × Except Refusal Answer}
    (hbindings : History.bindingsOf entry = [])
    (hparent : ∀ context, History.parentIn? context entry = none) :
    store.Follows (h ++ [entry]) where
  ordered := hfollows.ordered
  own := by
    intro context name
    rw [History.lastBinding?_append_singleton, hbindings]
    exact hfollows.own context name
  parent := by
    intro context
    rw [History.parent?_append_singleton, hparent, Option.or_none]
    exact hfollows.parent context
  size_le := by
    rw [List.length_append]
    exact Nat.le_add_right_of_le hfollows.size_le

theorem append_create (hfollows : store.Follows h) {entry : Step × Except Refusal Answer}
    {scope : Scope} {bindings : Bindings} {parent : Option Nat}
    (hscope : Bindings.empty.fill scope = (bindings, .ok ()))
    (holder : ∀ number ∈ parent, number < store.size)
    (hbindings : History.bindingsOf entry = History.scopeBindings store.size scope)
    (hparent : ∀ context,
      History.parentIn? context entry = if store.size = context then parent else none) :
    (store.create bindings parent).Follows (h ++ [entry]) where
  ordered := hfollows.ordered.create bindings holder
  own := by
    intro context name
    have hown := hfollows.own context name
    rw [History.lastBinding?_append_singleton, hbindings, getOwn?_create, Option.map_or, ← hown]
    split
    · next hnew =>
      rw [getOwn?_eq_none (Nat.le_of_eq hnew.symm), Bindings.get?_fill context hscope,
        Bindings.get?_empty, hnew]
    · next hne =>
      rw [History.lastOf?_scopeBindings_of_ne hne]
      rfl
  parent := by
    intro context
    rw [History.parent?_append_singleton, hparent, parent?_create, ← hfollows.parent]
    split
    · next hnew =>
      rw [parent?_eq_none (Nat.le_of_eq hnew.symm), if_pos hnew.symm]
      rfl
    · next hne =>
      rw [if_neg (Ne.symm hne), Option.or_none]
  size_le := by
    rw [size_create, List.length_append]
    exact Nat.succ_le_succ hfollows.size_le

/-- Both ways of making a context leave a store that follows the longer history. -/
theorem append_new (hfollows : store.Follows h) {step : Step} {scope : Scope}
    {offered : ParentArgument} {next : Store} {answer : Answer}
    (hnew : store.performNew scope offered = (next, .ok answer))
    (hbindings : ∀ made,
      History.bindingsOf (step, .ok (.number made)) = History.scopeBindings made scope)
    (hparent : ∀ made context, History.parentIn? context (step, .ok (.number made)) =
      if made = context then offered.number? else none) :
    next.Follows (h ++ [(step, .ok answer)]) := by
  obtain ⟨parent, bindings, hoffered, hscope, rfl, rfl⟩ :=
    (performNew_eq_ok_iff store scope offered next answer).1 hnew
  obtain ⟨rfl, holder⟩ := eq_of_checkParent_eq_ok hoffered
  exact hfollows.append_create hscope holder (hbindings _) (hparent _)

theorem append_define (hfollows : store.Follows h) {entry : Step × Except Refusal Answer}
    (binding : Binding) (hnumber : binding.context < store.size)
    (hbindings : History.bindingsOf entry = [binding])
    (hparent : ∀ context, History.parentIn? context entry = none) :
    (store.define binding.context binding.name binding.given.value).Follows
      (h ++ [entry]) where
  ordered := hfollows.ordered.define _ _ _
  own := by
    intro context name
    rw [History.lastBinding?_append_singleton, hbindings, getOwn?_define hnumber,
      History.lastOf?_singleton, Option.map_or, ← hfollows.own]
    by_cases hof : binding.IsOf context name
    · obtain ⟨rfl, rfl⟩ := hof
      simp [Binding.IsOf]
    · rw [if_neg hof, if_neg]
      · rfl
      · rintro ⟨rfl, rfl⟩
        exact hof ⟨rfl, rfl⟩
  parent := by
    intro context
    rw [History.parent?_append_singleton, hparent, Option.or_none, parent?_define]
    exact hfollows.parent context
  size_le := by
    rw [size_define, List.length_append]
    exact Nat.le_add_right_of_le hfollows.size_le

/-- Whatever a step does, the store goes on following the history. -/
theorem perform (hfollows : store.Follows h) (step : Step) :
    (store.perform step).1.Follows (h ++ [(step, (store.perform step).2)]) := by
  rcases hperform : store.perform step with ⟨next, refusal | answer⟩
  · obtain rfl := eq_of_perform_eq_error hperform
    exact hfollows.append_idle (History.bindingsOf_error step refusal)
      fun context => History.parentIn?_error context step refusal
  · cases step with
    | new scope offered =>
        exact hfollows.append_new hperform (fun _ => rfl) fun _ _ => rfl
    | child number scope =>
        exact hfollows.append_new hperform (fun _ => rfl) fun _ _ => rfl
    | define number name node =>
        obtain ⟨hnumber, value, rfl, rfl, rfl⟩ :=
          (performDefine_eq_ok_iff store number name node next answer).1 hperform
        exact hfollows.append_define ⟨number, name, .atom value⟩ hnumber rfl fun _ => rfl
    | defineToken number name token =>
        rw [perform_defineToken] at hperform
        obtain ⟨hnumber, value, hvalue, rfl, rfl⟩ :=
          (performDefine_eq_ok_iff store number name _ next answer).1 hperform
        obtain rfl := Node.atom.inj hvalue
        exact hfollows.append_define ⟨number, name, .token token⟩ hnumber rfl fun _ => rfl
    | _ =>
        obtain rfl := eq_of_ask_eq hperform
        exact hfollows.append_idle rfl fun _ => rfl

/-- After any number of steps the store follows the history that these have gone on. -/
theorem run (hfollows : store.Follows h) (steps : List Step) :
    (store.run steps).1.Follows (h ++ steps.zip (store.run steps).2) := by
  induction steps generalizing store h with
  | nil => simpa [Store.run] using hfollows
  | cons step steps ih =>
      have hrest := ih (hfollows.perform step)
      rwa [List.append_assoc] at hrest

theorem ancestor?_eq (hfollows : store.Follows h) (distance context : Nat) :
    store.ancestor? distance context = h.ancestor? distance context := by
  induction distance generalizing context with
  | zero => rfl
  | succ distance ih =>
      rw [Store.ancestor?, History.ancestor?, hfollows.parent]
      exact congrArg _ (funext ih)

theorem getElem?_lineage (hfollows : store.Follows h) {context : Nat}
    (hcontext : context < store.size) (distance : Nat) :
    (store.lineage context)[distance]? = h.ancestor? distance context := by
  rw [Store.getElem?_lineage hfollows.ordered hcontext, hfollows.ancestor?_eq]

/-- The chain of a context is all of its lineage. -/
theorem chain_eq (hfollows : store.Follows h) {context : Nat}
    (hcontext : context < store.size) : h.chain context = store.lineage context := by
  have hlookup : (h.ancestor? · context) = ((store.lineage context)[·]?) := by
    ext1 distance
    rw [hfollows.getElem?_lineage hcontext]
  have hlength : (store.lineage context).length ≤ h.length :=
    Nat.le_trans (store.length_lineage_le context) hfollows.size_le
  rw [History.chain, hlookup, filterMap_getElem?_range, List.take_of_length_le hlength]

/-- A name has in a store the value of the binding that is visible in the history. -/
theorem get?_eq (hfollows : store.Follows h) {context : Nat}
    (hcontext : context < store.size) (name : Text) :
    store.get? context name = (h.visible? context name).map (·.given.value) := by
  rw [History.visible?, hfollows.chain_eq hcontext, get?, List.map_findSome?]
  congr 1
  ext number
  rw [hfollows.own]
  rfl

end Follows

theorem follows_history (steps : List Step) : (after steps).Follows (history steps) :=
  Follows.empty.run steps

/-- The four questions about a name are answered by what the name is bound to. -/
theorem run_questions {store : Store} {context : Nat} (hcontext : context < store.size)
    (name : Text) :
    (store.run [.get context name, .contains context name, .lookup context name,
        .resolve context (.atom (.identifier name))]).2 =
      match store.get? context name with
      | some value => [.ok (.atom value), .ok (.truth true), .ok (.atom value),
          .ok (.node (.atom value))]
      | none => [.ok .nothing, .ok (.truth false), .error (.unbound name),
          .ok (.node (.atom (.identifier name)))] := by
  have hget : store.perform (.get context name) = _ := perform_of_ask hcontext rfl
  have hcontains : store.perform (.contains context name) = _ := perform_of_ask hcontext rfl
  have hlookup : store.perform (.lookup context name) = _ := perform_of_ask hcontext rfl
  have hresolve : store.perform (.resolve context (.atom (.identifier name))) = _ :=
    perform_of_ask hcontext rfl
  simp only [run, hget, hcontains, hlookup, hresolve, contains, lookup, resolve]
  cases store.get? context name <;> rfl

end Store

/-- The answers about a name at the end of a session.  The chain of a context is the
context, its parent, the parent of that, and so on.  If some context on it has ever bound
the name, the nearest of these decides, by its most recent binding: the name has the value
of it and resolves to it.  If none has, the name has no value, looking it up is refused,
and the name resolves to itself. -/
theorem session_questions (steps : List Step) {context : Nat} (name : Text)
    (hcontext : context < (Store.after steps).size) :
    (∀ distance, ((history steps).chain context)[distance]? =
      (history steps).ancestor? distance context) ∧
    session (steps ++ [.get context name, .contains context name, .lookup context name,
        .resolve context (.atom (.identifier name))]) =
      session steps ++
        (match (history steps).visible? context name with
        | some binding =>
            [.ok (.atom binding.given.value), .ok (.truth true),
              .ok (.atom binding.given.value), .ok (.node (.atom binding.given.value))]
        | none =>
            [.ok .nothing, .ok (.truth false), .error (.unbound name),
              .ok (.node (.atom (.identifier name)))]) ∧
    (Refusal.unbound name).message = "unbound identifier: ".toList ++ name := by
  have hfollows := Store.follows_history steps
  refine ⟨fun distance => ?_, ?_, rfl⟩
  · rw [hfollows.chain_eq hcontext]
    exact hfollows.getElem?_lineage hcontext distance
  · rw [session_append, Store.run_questions hcontext, hfollows.get?_eq hcontext]
    cases (history steps).visible? context name <;> rfl

/-- A binding that is made again in the parent after the child was made counts, and one
that is refused does not. -/
theorem session_questions_of_inherited :
    let steps : List Step :=
      [.new [(['x'], .atom (.identifier ['a']))] .none, .child 0 [],
        .defineToken 0 ['x'] ['b'], .define 1 ['x'] (.list [])]
    1 < (Store.after steps).size ∧
      session (steps ++ [.get 1 ['x'], .contains 1 ['x'], .lookup 1 ['x'],
          .resolve 1 (.atom (.identifier ['x']))]) =
        session steps ++
          [.ok (.atom (.identifier ['b'])), .ok (.truth true),
            .ok (.atom (.identifier ['b'])), .ok (.node (.atom (.identifier ['b'])))] :=
  ⟨by decide, (session_questions _ ['x'] (by decide)).2.1⟩

end Sexp
