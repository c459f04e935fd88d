import Mathlib.Data.List.Nodup
import Sexp.Scope.Bindings

/-!
# Bindings and the order of binding

Bindings are decided by what each name is bound to, so different names can be bound in any
order, and of the values that one name is bound to only the last one can be noticed.
-/

namespace Sexp

/-- Lists whose members stand in ascending order of their keys are the same list if they have
the same members. -/
theorem eq_of_pairwise_lt {α : Type} (key : α → Text) {items items' : List α}
    (hsorted : items.Pairwise fun item item' => key item < key item')
    (hsorted' : items'.Pairwise fun item item' => key item < key item')
    (hmem : ∀ item, item ∈ items ↔ item ∈ items') : items = items' := by
  have hne : ∀ {item item' : α}, key item < key item' → item ≠ item' := by
    rintro item _ hlt rfl
    exact List.lt_irrefl _ hlt
  have hperm := (List.perm_ext_iff_of_nodup (hsorted.imp hne) (hsorted'.imp hne)).2 hmem
  refine hperm.eq_of_pairwise (fun item item' _ _ hlt hgt => ?_) hsorted hsorted'
  exact absurd (List.lt_trans hlt hgt) (List.lt_irrefl _)

namespace Bindings

/-- In a list that has every name once, the entry of a name is what looking it up finds. -/
theorem mem_iff_lookup_eq {entries : List (Text × Atom)}
    (hnames : (entries.map (·.1)).Nodup) (name : Text) (value : Atom) :
    (name, value) ∈ entries ↔ entries.lookup name = some value := by
  induction entries with
  | nil => simp
  | cons head rest ih =>
      obtain ⟨hhead, hrest⟩ := List.nodup_cons.1 hnames
      rw [lookup_cons_eq_ite, List.mem_cons]
      split
      · next heq =>
        have hfresh : (name, value) ∉ rest := fun hmem =>
          hhead (List.mem_map.2 ⟨(name, value), hmem, heq⟩)
        rw [or_iff_left hfresh, Prod.ext_iff, Option.some.injEq]
        exact ⟨fun h => h.2.symm, fun h => ⟨heq, h.symm⟩⟩
      · next hne =>
        rw [← ih hrest]
        simp [Prod.ext_iff, hne]

theorem nodup_names (b : Bindings) : b.names.Nodup := by
  refine List.pairwise_map.2 (b.sorted.imp ?_)
  intro entry entry' hlt heq
  rw [heq] at hlt
  exact List.lt_irrefl _ hlt

/-- The names of bindings are decided by which names they are. -/
theorem names_eq_iff (b b' : Bindings) :
    b.names = b'.names ↔ ∀ name, name ∈ b.names ↔ name ∈ b'.names := by
  constructor
  · intro hnames name
    rw [hnames]
  · exact eq_of_pairwise_lt id (List.pairwise_map.2 b.sorted) (List.pairwise_map.2 b'.sorted)

theorem mem_entries_iff (b : Bindings) (name : Text) (value : Atom) :
    (name, value) ∈ b.entries ↔ b.get? name = some value :=
  mem_iff_lookup_eq b.nodup_names name value

/-- Bindings are decided by what each name is bound to. -/
theorem ext_get? {b b' : Bindings} (h : ∀ name, b.get? name = b'.get? name) : b = b' := by
  have hmem : ∀ entry, entry ∈ b.entries ↔ entry ∈ b'.entries := by
    rintro ⟨name, value⟩
    rw [mem_entries_iff, mem_entries_iff, h]
  have hentries : b.entries = b'.entries := eq_of_pairwise_lt Prod.fst b.sorted b'.sorted hmem
  cases b
  cases b'
  congr

/-- Different names can be bound in either order. -/
theorem insert_comm (b : Bindings) {name name' : Text} (hne : name ≠ name')
    (value value' : Atom) :
    (b.insert name value).insert name' value' = (b.insert name' value').insert name value := by
  apply ext_get?
  intro other
  simp only [get?_insert]
  by_cases hother : other = name
  · simp [hother, hne]
  · simp [hother]

/-- Of two values that a name is bound to in turn, the first leaves no trace. -/
theorem insert_insert (b : Bindings) (name : Text) (value value' : Atom) :
    (b.insert name value).insert name value' = b.insert name value' := by
  apply ext_get?
  intro other
  simp only [get?_insert]
  split <;> rfl

end Bindings

end Sexp
