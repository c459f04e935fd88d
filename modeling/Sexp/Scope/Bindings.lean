import Sexp.Node.Basic

/-!
# Bindings

A finite map from names to atoms.  Its entries stand in ascending order of the
names, each name once, so that equal maps are equal lists and the order in which
the names were bound leaves no trace.
-/

namespace Sexp

theorem Text.lt_of_not_lt_of_ne {x y : Text} (hlt : ¬x < y) (hne : x ≠ y) : y < x :=
  Decidable.byContradiction fun hge =>
    hne (List.le_antisymm (List.not_lt.1 hge) (List.not_lt.1 hlt))

/-- A finite map from names to atoms, with its entries in the order of the names. -/
structure Bindings where
  entries : List (Text × Atom)
  sorted : entries.Pairwise fun entry entry' => entry.1 < entry'.1
  deriving DecidableEq

namespace Bindings

def empty : Bindings := ⟨[], .nil⟩

/-- Puts an entry in its place among sorted entries, over an older one of the same
name. -/
def insertEntry (name : Text) (value : Atom) : List (Text × Atom) → List (Text × Atom)
  | [] => [(name, value)]
  | entry :: rest =>
      if name = entry.1 then (name, value) :: rest
      else if name < entry.1 then (name, value) :: entry :: rest
      else entry :: insertEntry name value rest

theorem mem_of_mem_insertEntry {name : Text} {value : Atom} {entry : Text × Atom}
    {entries : List (Text × Atom)} (h : entry ∈ insertEntry name value entries) :
    entry = (name, value) ∨ entry ∈ entries := by
  induction entries with
  | nil => simpa [insertEntry] using h
  | cons head rest ih =>
      unfold insertEntry at h
      split at h
      · rcases List.mem_cons.1 h with h | h
        · exact .inl h
        · exact .inr (List.mem_cons_of_mem _ h)
      · split at h
        · exact List.mem_cons.1 h
        · rcases List.mem_cons.1 h with rfl | h
          · exact .inr List.mem_cons_self
          · exact (ih h).imp_right (List.mem_cons_of_mem _)

theorem sorted_insertEntry (name : Text) (value : Atom) {entries : List (Text × Atom)}
    (hsorted : entries.Pairwise fun entry entry' => entry.1 < entry'.1) :
    (insertEntry name value entries).Pairwise fun entry entry' => entry.1 < entry'.1 := by
  induction entries with
  | nil => simp [insertEntry]
  | cons head rest ih =>
      obtain ⟨hhead, hrest⟩ := List.pairwise_cons.1 hsorted
      unfold insertEntry
      split
      · next heq => exact List.pairwise_cons.2 ⟨fun entry h => heq ▸ hhead entry h, hrest⟩
      · next hne =>
        split
        · next hlt =>
          refine List.pairwise_cons.2 ⟨fun entry h => ?_, hsorted⟩
          rcases List.mem_cons.1 h with rfl | h
          · exact hlt
          · exact List.lt_trans hlt (hhead entry h)
        · next hge =>
          refine List.pairwise_cons.2 ⟨fun entry h => ?_, ih hrest⟩
          rcases mem_of_mem_insertEntry h with rfl | h
          · exact Text.lt_of_not_lt_of_ne hge hne
          · exact hhead entry h

/-- Binds a name, in place of what it was bound to before. -/
def insert (b : Bindings) (name : Text) (value : Atom) : Bindings :=
  ⟨insertEntry name value b.entries, sorted_insertEntry name value b.sorted⟩

def get? (b : Bindings) (name : Text) : Option Atom := b.entries.lookup name

def names (b : Bindings) : List Text := b.entries.map (·.1)

@[simp] theorem get?_empty (name : Text) : empty.get? name = none := rfl

theorem lookup_cons_eq_ite (name : Text) (entry : Text × Atom)
    (rest : List (Text × Atom)) :
    (entry :: rest).lookup name = if name = entry.1 then some entry.2 else rest.lookup name := by
  obtain ⟨key, value⟩ := entry
  rw [List.lookup_cons]
  by_cases h : name = key
  · simp [h]
  · simp [h, beq_false_of_ne h]

theorem lookup_insertEntry (name other : Text) (value : Atom)
    (entries : List (Text × Atom)) :
    (insertEntry name value entries).lookup other =
      if other = name then some value else entries.lookup other := by
  induction entries with
  | nil => simp [insertEntry, lookup_cons_eq_ite]
  | cons head rest ih =>
      unfold insertEntry
      split
      · next heq =>
        rw [lookup_cons_eq_ite, lookup_cons_eq_ite, ← heq]
        split <;> rfl
      · next hne =>
        split
        · rw [lookup_cons_eq_ite]
        · rw [lookup_cons_eq_ite, lookup_cons_eq_ite, ih]
          by_cases h : other = head.1
          · simp [h, Ne.symm hne]
          · simp [h]

/-- After binding a name, it has the new value and no other name has changed. -/
theorem get?_insert (b : Bindings) (name other : Text) (value : Atom) :
    (b.insert name value).get? other = if other = name then some value else b.get? other :=
  lookup_insertEntry name other value b.entries

end Bindings

end Sexp
