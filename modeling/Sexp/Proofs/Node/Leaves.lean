import Sexp.Proofs.Atom.RoundTrip
import Sexp.Reader.Basic

/-!
# The leaves of a tree

The atoms of a tree and the values in it that are not nodes are the events of the tree
that are no parentheses.  Trees are equal when no atom of them is NaN and they are the
same tree once the sign of zero is dropped at every leaf.
-/

namespace Sexp

namespace Node

/-- An atom is a member of a node when it stands at a leaf of it. -/
instance : Membership Atom Node := ⟨fun node a => Event.atom a ∈ node.events⟩

/-- A tree without values that are not nodes. -/
def IsPure (node : Node) : Prop := ∀ typeName, Event.foreign typeName ∉ node.events

theorem mem_iff (a : Atom) (node : Node) : a ∈ node ↔ Event.atom a ∈ node.events := Iff.rfl

theorem mem_eventsAll_iff (event : Event) (nodes : List Node) :
    event ∈ eventsAll nodes ↔ ∃ node ∈ nodes, event ∈ node.events := by
  induction nodes with
  | nil => simp [eventsAll]
  | cons node rest ih => simp [eventsAll, ih]

@[simp] theorem mem_atom_iff (a b : Atom) : a ∈ atom b ↔ a = b := by
  simp [mem_iff, events]

@[simp] theorem mem_list_iff (a : Atom) (items : List Node) :
    a ∈ list items ↔ ∃ node ∈ items, a ∈ node := by
  simp [mem_iff, events, mem_eventsAll_iff]

theorem forall_mem_list_iff {P : Atom → Prop} {items : List Node} :
    (∀ a ∈ list items, P a) ↔ ∀ node ∈ items, ∀ a ∈ node, P a := by
  constructor
  · intro hall node hnode a ha
    exact hall a ((mem_list_iff a items).2 ⟨node, hnode, ha⟩)
  · intro hall a ha
    obtain ⟨node, hnode, ha⟩ := (mem_list_iff a items).1 ha
    exact hall node hnode a ha

@[simp] theorem not_mem_foreign (a : Atom) (typeName : Text) : ¬a ∈ foreign typeName := by
  simp [mem_iff, events]

@[simp] theorem isPure_atom (a : Atom) : (atom a).IsPure := by
  simp [IsPure, events]

@[simp] theorem isPure_list_iff (items : List Node) :
    (list items).IsPure ↔ ∀ node ∈ items, node.IsPure := by
  simp only [IsPure, events, List.mem_append, List.mem_cons, mem_eventsAll_iff]
  constructor
  · intro h node hnode typeName hforeign
    exact h typeName (.inl (.inr ⟨node, hnode, hforeign⟩))
  · rintro h typeName ((h' | ⟨node, hnode, hforeign⟩) | h' | h')
    · contradiction
    · exact h node hnode typeName hforeign
    · contradiction
    · contradiction

@[simp] theorem not_isPure_foreign (typeName : Text) : ¬(foreign typeName).IsPure := by
  simp [IsPure, events]

mutual

/-- The tree with the sign of zero dropped at every leaf. -/
def dropZeroSign : Node → Node
  | atom value => atom value.dropZeroSign
  | list items => list (dropZeroSignAll items)
  | foreign typeName => foreign typeName

def dropZeroSignAll : List Node → List Node
  | [] => []
  | node :: rest => dropZeroSign node :: dropZeroSignAll rest

end

mutual

/-- Two trees are equal when no atom of the first is NaN and they are the same tree up
to the sign of zero. -/
theorem equal_iff : ∀ node node' : Node,
    node.equal node' = true ↔
      (∀ a ∈ node, a ≠ .number .nan) ∧ node.dropZeroSign = node'.dropZeroSign
  | atom a, atom b => by simp [equal, dropZeroSign, Atom.equal_iff]
  | atom _, list _ => by simp [equal, dropZeroSign]
  | atom _, foreign _ => by simp [equal, dropZeroSign]
  | list _, atom _ => by simp [equal, dropZeroSign]
  | list items, list items' => by
      rw [equal, equalAll_iff items items', dropZeroSign, dropZeroSign, list.injEq]
      apply and_congr_left'
      constructor
      · intro hnan a ha
        obtain ⟨node, hnode, ha⟩ := (mem_list_iff a items).1 ha
        exact hnan node hnode a ha
      · intro hnan node hnode a ha
        exact hnan a ((mem_list_iff a items).2 ⟨node, hnode, ha⟩)
  | list _, foreign _ => by simp [equal, dropZeroSign]
  | foreign _, atom _ => by simp [equal, dropZeroSign]
  | foreign _, list _ => by simp [equal, dropZeroSign]
  | foreign name, foreign name' => by simp [equal, dropZeroSign]

theorem equalAll_iff : ∀ nodes nodes' : List Node,
    equalAll nodes nodes' = true ↔
      (∀ node ∈ nodes, ∀ a ∈ node, a ≠ .number .nan) ∧
        dropZeroSignAll nodes = dropZeroSignAll nodes'
  | [], [] => by simp [equalAll]
  | [], _ :: _ => by simp [equalAll, dropZeroSignAll]
  | _ :: _, [] => by simp [equalAll, dropZeroSignAll]
  | node :: rest, node' :: rest' => by
      rw [equalAll, Bool.and_eq_true, equal_iff node node', equalAll_iff rest rest',
        dropZeroSignAll, dropZeroSignAll, List.cons.injEq, List.forall_mem_cons]
      exact and_and_and_comm

end

mutual

/-- The atoms of a tree without the sign of zero are those of the tree, each without the
sign of zero. -/
theorem mem_dropZeroSign_iff (a : Atom) : ∀ node : Node,
    a ∈ node.dropZeroSign ↔ ∃ b ∈ node, b.dropZeroSign = a
  | atom b => by simp [dropZeroSign, eq_comm]
  | list items => by
      rw [dropZeroSign, mem_list_iff, mem_dropZeroSignAll_iff a items]
      simp only [mem_list_iff]
      constructor
      · rintro ⟨node, hnode, b, hb, rfl⟩
        exact ⟨b, ⟨node, hnode, hb⟩, rfl⟩
      · rintro ⟨b, ⟨node, hnode, hb⟩, rfl⟩
        exact ⟨node, hnode, b, hb, rfl⟩
  | foreign typeName => by simp [dropZeroSign]

theorem mem_dropZeroSignAll_iff (a : Atom) : ∀ nodes : List Node,
    (∃ node ∈ dropZeroSignAll nodes, a ∈ node) ↔
      ∃ node ∈ nodes, ∃ b ∈ node, b.dropZeroSign = a
  | [] => by simp [dropZeroSignAll]
  | node :: rest => by
      simp only [dropZeroSignAll, List.mem_cons, exists_eq_or_imp]
      rw [mem_dropZeroSign_iff a node, mem_dropZeroSignAll_iff a rest]

end

mutual

theorem dropZeroSign_dropZeroSign : ∀ node : Node,
    node.dropZeroSign.dropZeroSign = node.dropZeroSign
  | atom a => by simp [dropZeroSign]
  | list items => by simp [dropZeroSign, dropZeroSignAll_dropZeroSignAll items]
  | foreign _ => rfl

theorem dropZeroSignAll_dropZeroSignAll : ∀ nodes : List Node,
    dropZeroSignAll (dropZeroSignAll nodes) = dropZeroSignAll nodes
  | [] => rfl
  | node :: rest => by
      simp [dropZeroSignAll, dropZeroSign_dropZeroSign node,
        dropZeroSignAll_dropZeroSignAll rest]

end

/-- A tree without NaN is equal to itself without the sign of zero. -/
theorem equal_dropZeroSign {node : Node} (hnan : ∀ a ∈ node, a ≠ .number .nan) :
    node.dropZeroSign.equal node = true := by
  rw [equal_iff]
  refine ⟨fun a ha => ?_, dropZeroSign_dropZeroSign node⟩
  obtain ⟨b, hb, rfl⟩ := (mem_dropZeroSign_iff a node).1 ha
  rw [ne_eq, Atom.dropZeroSign_eq_nan_iff]
  exact hnan b hb

theorem equalAll_dropZeroSignAll {nodes : List Node}
    (hnan : ∀ node ∈ nodes, ∀ a ∈ node, a ≠ .number .nan) :
    equalAll (dropZeroSignAll nodes) nodes = true := by
  induction nodes with
  | nil => rfl
  | cons node rest ih =>
      obtain ⟨hnode, hrest⟩ := List.forall_mem_cons.1 hnan
      rw [dropZeroSignAll, equalAll, equal_dropZeroSign hnode, ih hrest, Bool.and_self]

end Node

end Sexp
