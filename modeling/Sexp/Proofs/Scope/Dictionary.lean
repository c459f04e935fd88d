import Sexp.Proofs.Scope.Bindings
import Sexp.Proofs.Scope.Following

/-!
# Names in the order of binding

A dictionary keeps its names in the order in which each was first bound.  Sorting it by name
gives the bindings that are made by the same steps: the order is lost, and nothing else.  So
what a context shows after a session is the dictionary that the history of the session has for
it, in the order of the names.
-/

namespace Sexp

/-- A finite map from names to atoms that keeps its names in the order in which each was
first bound. -/
structure Dictionary where
  entries : List (Text × Atom)
  nodup : (entries.map (·.1)).Nodup

/-- Names in ascending order. -/
def ascending (names : List Text) : List Text :=
  names.mergeSort fun name name' => !decide (name' < name)

namespace Dictionary

def empty : Dictionary := ⟨[], .nil⟩

/-- The names of a dictionary, in the order in which each was first bound. -/
def names (d : Dictionary) : List Text := d.entries.map (·.1)

/-- Puts a value in the place that its name has, or at the end if it is a new name. -/
def setEntry (name : Text) (value : Atom) : List (Text × Atom) → List (Text × Atom)
  | [] => [(name, value)]
  | entry :: rest =>
      if name = entry.1 then (name, value) :: rest else entry :: setEntry name value rest

theorem names_setEntry (name : Text) (value : Atom) (entries : List (Text × Atom)) :
    (setEntry name value entries).map (·.1) =
      if name ∈ entries.map (·.1) then entries.map (·.1) else entries.map (·.1) ++ [name] := by
  induction entries with
  | nil => rfl
  | cons entry rest ih =>
      unfold setEntry
      split
      · next heq => simp [heq]
      · next hne =>
        have hiff : name ∈ (entry :: rest).map (·.1) ↔ name ∈ rest.map (·.1) := by
          rw [List.map_cons, List.mem_cons]
          exact or_iff_right hne
        simp only [List.map_cons, ih, ← hiff]
        split <;> rfl

theorem nodup_setEntry (name : Text) (value : Atom) {entries : List (Text × Atom)}
    (hnodup : (entries.map (·.1)).Nodup) : ((setEntry name value entries).map (·.1)).Nodup := by
  rw [names_setEntry]
  split
  · exact hnodup
  · next hnew =>
    exact (List.perm_append_singleton _ _).nodup_iff.2 (List.nodup_cons.2 ⟨hnew, hnodup⟩)

theorem lookup_setEntry (name other : Text) (value : Atom) (entries : List (Text × Atom)) :
    (setEntry name value entries).lookup other =
      if other = name then some value else entries.lookup other := by
  induction entries with
  | nil => rw [setEntry, Bindings.lookup_cons_eq_ite]
  | cons entry rest ih =>
      unfold setEntry
      split
      · next heq =>
        rw [Bindings.lookup_cons_eq_ite, Bindings.lookup_cons_eq_ite, ← heq]
        split <;> rfl
      · next hne =>
        rw [Bindings.lookup_cons_eq_ite, Bindings.lookup_cons_eq_ite, ih]
        by_cases h : other = entry.1
        · simp [h, Ne.symm hne]
        · simp [h]

/-- Binds a name: a name that is there keeps its place, and a new one comes last. -/
def set (d : Dictionary) (name : Text) (value : Atom) : Dictionary :=
  ⟨setEntry name value d.entries, nodup_setEntry name value d.nodup⟩

def get? (d : Dictionary) (name : Text) : Option Atom := d.entries.lookup name

/-- The name of the first entry does not come after the name of the second one. -/
def entryLe (entry entry' : Text × Atom) : Bool := !decide (entry'.1 < entry.1)

theorem entryLe_iff (entry entry' : Text × Atom) :
    entryLe entry entry' = true ↔ ¬entry'.1 < entry.1 := by
  simp [entryLe]

theorem pairwise_mergeSort (entries : List (Text × Atom)) :
    (entries.mergeSort entryLe).Pairwise fun entry entry' => ¬entry'.1 < entry.1 := by
  have htrans : ∀ e e' e'' : Text × Atom, entryLe e e' → entryLe e' e'' → entryLe e e'' := by
    intro e e' e'' hle hle'
    rw [entryLe_iff] at hle hle' ⊢
    exact List.not_lt.2 (List.le_trans (List.not_lt.1 hle) (List.not_lt.1 hle'))
  have htotal : ∀ e e' : Text × Atom, entryLe e e' || entryLe e' e := by
    intro e e'
    rw [Bool.or_eq_true, entryLe_iff, entryLe_iff]
    exact (List.le_total e.1 e'.1).imp List.not_lt.2 List.not_lt.2
  exact (List.pairwise_mergeSort htrans htotal entries).imp (entryLe_iff _ _).1

theorem perm_names_mergeSort (entries : List (Text × Atom)) :
    ((entries.mergeSort entryLe).map (·.1)).Perm (entries.map (·.1)) :=
  (List.mergeSort_perm entries entryLe).map _

/-- The entries of a dictionary in the order of their names. -/
def sorted (d : Dictionary) : Bindings where
  entries := d.entries.mergeSort entryLe
  sorted := by
    have hnodup := (perm_names_mergeSort d.entries).nodup_iff.2 d.nodup
    refine (pairwise_mergeSort d.entries).imp₂ (fun entry entry' hle hne => ?_)
      (List.pairwise_map.1 hnodup)
    exact Text.lt_of_not_lt_of_ne hle (Ne.symm hne)

@[simp] theorem get?_sorted (d : Dictionary) (name : Text) : d.sorted.get? name = d.get? name := by
  apply Option.ext
  intro value
  rw [← Bindings.mem_entries_iff, get?, ← Bindings.mem_iff_lookup_eq d.nodup]
  exact (List.mergeSort_perm d.entries entryLe).mem_iff

/-- The names that sorted entries show are the names in ascending order. -/
theorem names_sorted (d : Dictionary) : d.sorted.names = ascending d.names :=
  List.map_mergeSort fun _ _ _ _ => rfl

theorem get?_set (d : Dictionary) (name other : Text) (value : Atom) :
    (d.set name value).get? other = if other = name then some value else d.get? other :=
  lookup_setEntry name other value d.entries

/-- Sorting loses the order of the entries and nothing else. -/
theorem sorted_eq_iff (d d' : Dictionary) : d.sorted = d'.sorted ↔ d.entries.Perm d'.entries := by
  constructor
  · intro hsorted
    have hentries : d.entries.mergeSort entryLe = d'.entries.mergeSort entryLe :=
      congrArg Bindings.entries hsorted
    have hperm := (List.mergeSort_perm d.entries entryLe).symm
    rw [hentries] at hperm
    exact hperm.trans (List.mergeSort_perm d'.entries entryLe)
  · intro hperm
    apply Bindings.ext_get?
    intro name
    ext1 value
    rw [get?_sorted, get?_sorted, get?, get?, ← Bindings.mem_iff_lookup_eq d.nodup,
      ← Bindings.mem_iff_lookup_eq d'.nodup, hperm.mem_iff]

/-- Takes over a binding, if it is one of the context. -/
def record (context : Nat) (d : Dictionary) (binding : Binding) : Dictionary :=
  if binding.context = context then d.set binding.name binding.given.value else d

end Dictionary

namespace History

/-- The names of a context in the order in which each was first bound in it, with the value
that was given to each most recently. -/
def dictionary (h : History) (context : Nat) : Dictionary :=
  (h.flatMap bindingsOf).foldl (Dictionary.record context) .empty

theorem get?_foldl_record (bindings : List Binding) (context : Nat) (d : Dictionary)
    (name : Text) :
    (bindings.foldl (Dictionary.record context) d).get? name =
      ((lastOf? bindings context name).map (·.given.value)).or (d.get? name) := by
  induction bindings generalizing d with
  | nil => rfl
  | cons binding bindings ih =>
      have hcons : binding :: bindings = [binding] ++ bindings := rfl
      rw [List.foldl_cons, ih, hcons, lastOf?_append, lastOf?_singleton, Option.map_or,
        Option.or_assoc, Dictionary.record]
      by_cases hcontext : binding.context = context
      · rw [if_pos hcontext, Dictionary.get?_set]
        by_cases hname : name = binding.name
        · simp [Binding.IsOf, hcontext, hname]
        · simp [Binding.IsOf, hname, Ne.symm hname]
      · simp [Binding.IsOf, hcontext]

theorem get?_dictionary (h : History) (context : Nat) (name : Text) :
    (h.dictionary context).get? name = (h.lastBinding? context name).map (·.given.value) := by
  rw [dictionary, get?_foldl_record]
  exact Option.or_none

end History

/-- What a context shows at the end of a session is its dictionary in the order of the names,
whatever the order in which the session has bound them. -/
theorem Store.bindings_after (steps : List Step) (context : Nat) :
    (Store.after steps).bindings context = ((history steps).dictionary context).sorted := by
  apply Bindings.ext_get?
  intro name
  rw [Dictionary.get?_sorted, History.get?_dictionary]
  exact (Store.follows_history steps).own context name

/-- The names that a context shows at the end of a session are those that were bound in it, in
ascending order. -/
theorem Store.names_bindings_after (steps : List Step) (context : Nat) :
    ((Store.after steps).bindings context).names =
      ascending ((history steps).dictionary context).names := by
  rw [bindings_after, Dictionary.names_sorted]

theorem Store.mem_names_bindings_after (steps : List Step) (context : Nat) (name : Text) :
    name ∈ ((after steps).bindings context).names ↔
      name ∈ ((history steps).dictionary context).names := by
  rw [names_bindings_after]
  exact List.mem_mergeSort

end Sexp
