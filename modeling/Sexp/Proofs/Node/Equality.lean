import Sexp.Proofs.Node.Display

/-!
# Equality of trees

Equal trees are the same tree up to the sign of zero, and no atom of them is NaN.  So equality
is symmetric and transitive, and a tree is equal to a separately built copy of itself unless
NaN is in it.  A copy is the same value here; that a host may take one and the same object for
equal to itself without looking into it has no part in this.  None of the texts of a tree shows
the sign of a zero, however deep the zero stands, so equal trees have the same JSON text, the
same source text and the same description.
-/

namespace Sexp

theorem Atom.kindless_dropZeroSign (x : Atom) : x.dropZeroSign.kindless = x.kindless := by
  cases x <;> simp [dropZeroSign, kindless]

namespace Node

mutual

/-- Without kinds a tree has no sign of zero left to drop. -/
theorem kindless_dropZeroSign : ∀ node : Node, node.dropZeroSign.kindless = node.kindless
  | atom x => by rw [dropZeroSign, kindless, kindless, Atom.kindless_dropZeroSign]
  | list items => by rw [dropZeroSign, kindless, kindless, kindlessAll_dropZeroSignAll items]
  | foreign _ => rfl

theorem kindlessAll_dropZeroSignAll : ∀ nodes : List Node,
    kindlessAll (dropZeroSignAll nodes) = kindlessAll nodes
  | [] => rfl
  | node :: rest => by
      rw [dropZeroSignAll, kindlessAll, kindlessAll, kindless_dropZeroSign node,
        kindlessAll_dropZeroSignAll rest]

end

variable {a b c : Node}

/-- Of trees that are the same up to the sign of zero, both are without NaN or neither is. -/
theorem ne_nan_of_dropZeroSign_eq (hdrop : a.dropZeroSign = b.dropZeroSign)
    (hnan : ∀ x ∈ a, x ≠ .number .nan) : ∀ x ∈ b, x ≠ .number .nan := by
  intro x hx
  have hmem := (mem_dropZeroSign_iff x.dropZeroSign b).2 ⟨x, hx, rfl⟩
  rw [← hdrop] at hmem
  obtain ⟨y, hy, hyx⟩ := (mem_dropZeroSign_iff x.dropZeroSign a).1 hmem
  rw [ne_eq, ← Atom.dropZeroSign_eq_nan_iff, ← hyx, Atom.dropZeroSign_eq_nan_iff]
  exact hnan y hy

theorem equal_symm (hequal : a.equal b = true) : b.equal a = true := by
  obtain ⟨hnan, hdrop⟩ := (equal_iff a b).1 hequal
  exact (equal_iff b a).2 ⟨ne_nan_of_dropZeroSign_eq hdrop hnan, hdrop.symm⟩

theorem equal_comm (a b : Node) : a.equal b = b.equal a :=
  Bool.eq_iff_iff.2 ⟨equal_symm, equal_symm⟩

theorem equal_trans (hequal : a.equal b = true) (hequal' : b.equal c = true) :
    a.equal c = true := by
  obtain ⟨hnan, hdrop⟩ := (equal_iff a b).1 hequal
  obtain ⟨-, hdrop'⟩ := (equal_iff b c).1 hequal'
  exact (equal_iff a c).2 ⟨hnan, hdrop.trans hdrop'⟩

theorem equal_self_iff (node : Node) :
    node.equal node = true ↔ ∀ x ∈ node, x ≠ .number .nan := by
  rw [equal_iff]
  exact and_iff_left rfl

/-- Two trees have each of their three texts in common. -/
structure SharesTexts (a b : Node) : Prop where
  json : ∃ text, a.jsonText = .ok text ∧ b.jsonText = .ok text
  source : ∃ text, a.source = .ok text ∧ b.source = .ok text
  description : ∃ text, a.describe? = some text ∧ b.describe? = some text

/-- What is the same without kinds has the same JSON text. -/
theorem exists_jsonText_of_kindless_eq (ha : a.IsPure) (hb : b.IsPure)
    (hkindless : a.kindless = b.kindless) :
    ∃ text, a.jsonText = .ok text ∧ b.jsonText = .ok text := by
  obtain ⟨value, hvalue, hdecoded, -⟩ := exists_toJson ha
  obtain ⟨value', hvalue', hdecoded', -⟩ := exists_toJson hb
  have hcompact : value.compact = value'.compact := by
    rw [Json.compact_eq_iff, hdecoded, hdecoded', hkindless]
  refine ⟨value.compact, jsonText_of_toJson hvalue, ?_⟩
  rw [jsonText_of_toJson hvalue', hcompact]

/-- No text of a tree depends on the sign of a zero in it. -/
theorem sharesTexts_of_dropZeroSign_eq (ha : a.IsPure) (hb : b.IsPure)
    (hdrop : a.dropZeroSign = b.dropZeroSign) : a.SharesTexts b where
  json := by
    apply exists_jsonText_of_kindless_eq ha hb
    rw [← kindless_dropZeroSign a, hdrop, kindless_dropZeroSign]
  source := by
    obtain ⟨text, hsource, -⟩ := exists_source ha
    refine ⟨text, hsource, ?_⟩
    rw [← source_dropZeroSign b, ← hdrop, source_dropZeroSign, hsource]
  description := by
    obtain ⟨text, hdescribe⟩ := exists_describe? ha
    refine ⟨text, hdescribe, ?_⟩
    rw [← describe?_dropZeroSign b, ← hdrop, describe?_dropZeroSign, hdescribe]

/-- Equality of trees is symmetric and transitive, a tree is equal to a separately built copy of
itself exactly when NaN is not in it, and equal trees without foreign values have the same
three texts. -/
theorem equal_laws (a b c : Node) :
    a.equal b = b.equal a ∧
      (a.equal b = true → b.equal c = true → a.equal c = true) ∧
      (a.equal a = true ↔ ∀ x ∈ a, x ≠ .number .nan) ∧
      (a.IsPure → b.IsPure → a.equal b = true → a.SharesTexts b) :=
  ⟨equal_comm a b, equal_trans, equal_self_iff a, fun ha hb hequal =>
    sharesTexts_of_dropZeroSign_eq ha hb ((equal_iff a b).1 hequal).2⟩

/-- Zeros of either sign, at any depth, make no difference; NaN makes a tree differ from a
separately built copy. -/
theorem equal_laws_zeros :
    let zero (negative : Bool) : Node := .atom (.number (.finite negative .zero))
    let a : Node := .list [zero true, .list [.atom (.string ['x']), zero false]]
    let b : Node := .list [zero true, .list [.atom (.string ['x']), zero true]]
    let c : Node := .list [zero false, .list [.atom (.string ['x']), zero true]]
    let undefined : Node := .list [a, .list [.atom (.number .nan)]]
    a.IsPure ∧ b.IsPure ∧ a.equal b = true ∧ b.equal c = true ∧ a.equal c = true ∧
      c.equal a = true ∧ a.SharesTexts b ∧ undefined.equal undefined = false := by
  intro zero a b c undefined
  have ha : a.IsPure := by simp [a, zero]
  have hb : b.IsPure := by simp [b, zero]
  have hab : a.equal b = true := by decide +kernel
  have hbc : b.equal c = true := by decide +kernel
  obtain ⟨-, htrans, -, htexts⟩ := equal_laws a b c
  have hac := htrans hab hbc
  obtain ⟨hcomm, -⟩ := equal_laws c a c
  obtain ⟨-, -, hself, -⟩ := equal_laws undefined a a
  refine ⟨ha, hb, hab, hbc, hac, hcomm.trans hac, htexts ha hb hab, ?_⟩
  rw [Bool.eq_false_iff]
  intro hequal
  exact hself.1 hequal (.number .nan) (by simp [undefined]) rfl

end Node

end Sexp
