import Sexp.Proofs.Scope.Session

/-!
# The history of a session

What a context binds can be read off the steps of a session and their outcomes, without
any store: the last accepted step that bound a name in a context, and the step that made
the context and said which parent it has.  A binding is visible from a context when it is
the last one of its name in the nearest context, from there outward, that ever had one.
-/

namespace Sexp

/-- The steps of a session with their outcomes, the first one first. -/
abbrev History := List (Step × Except Refusal Answer)

/-- The history of the session with the given steps. -/
def history (steps : List Step) : History := steps.zip (session steps)

/-- What a name is bound by: an atom, or a token that stands for one. -/
inductive Given
  | atom (value : Atom)
  | token (text : Text)
  deriving DecidableEq

def Given.value : Given → Atom
  | atom value => value
  | token text => Atom.ofToken text

/-- That a name was bound in a context. -/
structure Binding where
  context : Nat
  name : Text
  given : Given
  deriving DecidableEq

def Binding.IsOf (binding : Binding) (context : Nat) (name : Text) : Prop :=
  binding.context = context ∧ binding.name = name

instance (binding : Binding) (context : Nat) (name : Text) :
    Decidable (binding.IsOf context name) :=
  inferInstanceAs (Decidable (_ ∧ _))

namespace History

/-- The bindings that a scope makes in a new context. -/
def scopeBindings (context : Nat) (scope : Scope) : List Binding :=
  scope.filterMap fun
    | (name, .atom value) => some ⟨context, name, .atom value⟩
    | _ => none

/-- The bindings that a step has made, in the order of their making. -/
def bindingsOf : Step × Except Refusal Answer → List Binding
  | (.new scope _, .ok (.number made)) => scopeBindings made scope
  | (.child _ scope, .ok (.number made)) => scopeBindings made scope
  | (.define context name (.atom value), .ok _) => [⟨context, name, .atom value⟩]
  | (.defineToken context name token, .ok _) => [⟨context, name, .token token⟩]
  | _ => []

/-- The parent of a context, if a step has made the context and given it one. -/
def parentIn? (context : Nat) : Step × Except Refusal Answer → Option Nat
  | (.new _ offered, .ok (.number made)) =>
      if made = context then offered.number? else none
  | (.child parent _, .ok (.number made)) => if made = context then some parent else none
  | _ => none

/-- The last binding of a list that is one of a name in a context. -/
def lastOf? (bindings : List Binding) (context : Nat) (name : Text) : Option Binding :=
  bindings.reverse.find? fun binding => decide (binding.IsOf context name)

/-- The most recent binding of a name in a context. -/
def lastBinding? (h : History) (context : Nat) (name : Text) : Option Binding :=
  lastOf? (h.flatMap bindingsOf) context name

def parent? (h : History) (context : Nat) : Option Nat :=
  h.findSome? (parentIn? context)

/-- The context that is so many parents away. -/
def ancestor? (h : History) : Nat → Nat → Option Nat
  | 0, context => some context
  | distance + 1, context => (h.parent? context).bind (ancestor? h distance)

/-- A context, its parent, the parent of that, and so on.  No more contexts can be passed
than steps were taken. -/
def chain (h : History) (context : Nat) : List Nat :=
  (List.range h.length).filterMap (h.ancestor? · context)

/-- The most recent binding of a name in the nearest context, from a context outward, that
has ever had one. -/
def visible? (h : History) (context : Nat) (name : Text) : Option Binding :=
  (h.chain context).findSome? (h.lastBinding? · name)

theorem lastOf?_append (bindings bindings' : List Binding) (context : Nat) (name : Text) :
    lastOf? (bindings ++ bindings') context name =
      (lastOf? bindings' context name).or (lastOf? bindings context name) := by
  rw [lastOf?, List.reverse_append, List.find?_append]
  rfl

theorem lastOf?_singleton (binding : Binding) (context : Nat) (name : Text) :
    lastOf? [binding] context name =
      if binding.IsOf context name then some binding else none := by
  by_cases h : binding.IsOf context name <;> simp [lastOf?, h]

theorem context_of_mem_scopeBindings {made : Nat} {scope : Scope} {binding : Binding}
    (hbinding : binding ∈ scopeBindings made scope) : binding.context = made := by
  obtain ⟨⟨name, node⟩, -, hnode⟩ := List.mem_filterMap.1 hbinding
  cases node with
  | atom value =>
      obtain rfl := Option.some.inj hnode
      rfl
  | list items => contradiction
  | foreign typeName => contradiction

/-- A scope binds no names in other contexts. -/
theorem lastOf?_scopeBindings_of_ne {made context : Nat} (hne : context ≠ made) (scope : Scope)
    (name : Text) : lastOf? (scopeBindings made scope) context name = none := by
  refine List.find?_eq_none.2 fun binding hbinding => ?_
  rw [decide_eq_true_eq]
  rintro ⟨rfl, -⟩
  exact hne (context_of_mem_scopeBindings (List.mem_reverse.1 hbinding))

theorem lastBinding?_append_singleton (h : History) (entry : Step × Except Refusal Answer)
    (context : Nat) (name : Text) :
    (h ++ [entry]).lastBinding? context name =
      (lastOf? (bindingsOf entry) context name).or (h.lastBinding? context name) := by
  rw [lastBinding?, List.flatMap_append, lastOf?_append, List.flatMap_singleton]
  rfl

theorem parent?_append_singleton (h : History) (entry : Step × Except Refusal Answer)
    (context : Nat) :
    (h ++ [entry]).parent? context = (h.parent? context).or (parentIn? context entry) := by
  rw [parent?, List.findSome?_append, List.findSome?_singleton]
  rfl

@[simp] theorem bindingsOf_error (step : Step) (refusal : Refusal) :
    bindingsOf (step, .error refusal) = [] := by
  cases step <;> simp [bindingsOf]

@[simp] theorem parentIn?_error (context : Nat) (step : Step) (refusal : Refusal) :
    parentIn? context (step, .error refusal) = none := by
  cases step <;> simp [parentIn?]

end History

/-- After the names of a scope are bound, each of them has the last value that the scope
has for it. -/
theorem Bindings.get?_fill {scope : Scope} {b b' : Bindings} (context : Nat)
    (hscope : b.fill scope = (b', .ok ())) (name : Text) :
    b'.get? name =
      ((History.lastOf? (History.scopeBindings context scope) context name).map (·.given.value)).or
        (b.get? name) := by
  induction scope generalizing b with
  | nil =>
      obtain rfl := (Prod.mk.inj hscope).1
      rfl
  | cons entry scope ih =>
      obtain ⟨key, node⟩ := entry
      obtain ⟨value, rfl, hrest⟩ := (fill_cons_eq_ok_iff b b' key node scope).1 hscope
      have hcons : History.scopeBindings context ((key, .atom value) :: scope) =
          [⟨context, key, .atom value⟩] ++ History.scopeBindings context scope := rfl
      rw [ih hrest, Bindings.get?_insert, hcons, History.lastOf?_append,
        History.lastOf?_singleton, Option.map_or, Option.or_assoc]
      by_cases hname : name = key
      · simp [Binding.IsOf, Given.value, hname]
      · simp [Binding.IsOf, hname, Ne.symm hname]

end Sexp
