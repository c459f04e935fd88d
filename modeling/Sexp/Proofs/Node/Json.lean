import Sexp.Node.Json
import Sexp.Proofs.Json.RoundTrip
import Sexp.Proofs.Node.Leaves

/-!
# The JSON text of trees

The JSON text of a tree is decoded as the tree without the kinds of its texts: lists are
arrays, identifiers and strings are strings, and numbers are numbers, up to the sign of
zero.  Plain JSON suffices when all numbers are finite.  So the texts of two trees are the
same exactly when the trees are, once the kinds and the sign of zero are forgotten.
-/

namespace Sexp

/-- An atom without its kind and without the sign of zero. -/
def Atom.kindless : Atom → JsonValue
  | identifier name => .string name
  | string text => .string text
  | number x => .number x.dropZeroSign

namespace Node

mutual

/-- A tree without the kinds of its atoms and without the sign of zero.  A value that is
not a node has no place in it, and is left blank. -/
def kindless : Node → JsonValue
  | atom value => value.kindless
  | list items => .array (kindlessAll items)
  | foreign _ => .null

def kindlessAll : List Node → List JsonValue
  | [] => []
  | node :: rest => kindless node :: kindlessAll rest

end

theorem toJson_list {items : List Node} {values : List Json}
    (hvalues : toJsonAll items = .ok values) : (list items).toJson = .ok (.array values) := by
  rw [toJson, hvalues]
  rfl

theorem toJsonAll_cons {node : Node} {rest : List Node} {value : Json} {values : List Json}
    (hvalue : node.toJson = .ok value) (hvalues : toJsonAll rest = .ok values) :
    toJsonAll (node :: rest) = .ok (value :: values) := by
  rw [toJsonAll, hvalue, hvalues]
  rfl

mutual

/-- A tree of nodes has a JSON value, with the same numbers, and this value is decoded as
the tree without kinds. -/
theorem exists_toJson : ∀ {node : Node}, node.IsPure →
    ∃ value, node.toJson = .ok value ∧ value.decoded = node.kindless ∧
      ∀ x, x ∈ value.numbers ↔ Atom.number x ∈ node
  | atom a, _ => by
      refine ⟨a.toJson, rfl, ?_, fun x => ?_⟩
      · cases a <;> rfl
      · cases a <;> simp [Atom.toJson, Json.numbers]
  | list items, hpure => by
      obtain ⟨values, hvalues, hdecoded, hnumbers⟩ :=
        exists_toJsonAll ((isPure_list_iff items).1 hpure)
      refine ⟨.array values, toJson_list hvalues, ?_, fun x => ?_⟩
      · rw [Json.decoded, hdecoded, kindless]
      · rw [Json.numbers, hnumbers, mem_list_iff]
  | foreign typeName, hpure => absurd hpure (not_isPure_foreign typeName)

theorem exists_toJsonAll : ∀ {nodes : List Node}, (∀ node ∈ nodes, node.IsPure) →
    ∃ values, toJsonAll nodes = .ok values ∧ Json.decodedAll values = kindlessAll nodes ∧
      ∀ x, x ∈ Json.numbersAll values ↔ ∃ node ∈ nodes, Atom.number x ∈ node
  | [], _ => ⟨[], rfl, rfl, fun x => by simp [Json.numbersAll]⟩
  | node :: rest, hpure => by
      rw [List.forall_mem_cons] at hpure
      obtain ⟨value, hvalue, hdecoded, hnumbers⟩ := exists_toJson hpure.1
      obtain ⟨values, hvalues, hdecodedAll, hnumbersAll⟩ := exists_toJsonAll hpure.2
      refine ⟨value :: values, toJsonAll_cons hvalue hvalues, ?_, fun x => ?_⟩
      · rw [Json.decodedAll, hdecoded, hdecodedAll, kindlessAll]
      · simp [Json.numbersAll, hnumbers, hnumbersAll]

end

theorem jsonText_of_toJson {node : Node} {value : Json} (hvalue : node.toJson = .ok value) :
    node.jsonText = .ok value.compact := by
  rw [jsonText, hvalue]
  rfl

/-- The JSON text of a tree is decoded as a whole as the tree without kinds: in the notation
with words for the numbers that are not finite, and in plain JSON if all its numbers are
finite.  Another tree has the same text exactly when it is the same without kinds. -/
theorem ofText?_jsonText {node : Node} (hpure : node.IsPure) :
    ∃ text, node.jsonText = .ok text ∧
      JsonValue.ofText? .extended text = some node.kindless ∧
      ((∀ x, Atom.number x ∈ node → x.isFinite = true) →
        JsonValue.ofText? .plain text = some node.kindless) ∧
      ∀ node' : Node, node'.IsPure →
        (node'.jsonText = .ok text ↔ node'.kindless = node.kindless) := by
  obtain ⟨value, hvalue, hdecoded, hnumbers⟩ := exists_toJson hpure
  refine ⟨value.compact, jsonText_of_toJson hvalue, ?_, fun hfinite => ?_, fun node' hpure' => ?_⟩
  · rw [← hdecoded]
    exact Json.ofText?_compact fun _ _ => .inl rfl
  · rw [← hdecoded]
    exact Json.ofText?_compact fun x hx => .inr (hfinite x ((hnumbers x).1 hx))
  · obtain ⟨value', hvalue', hdecoded', -⟩ := exists_toJson hpure'
    rw [jsonText_of_toJson hvalue', Except.ok.injEq, Json.compact_eq_iff, hdecoded, hdecoded']

/-- An identifier and a string of one text, and the two zeros, cannot be told apart. -/
theorem ofText?_jsonText_kinds :
    (list [atom (.identifier ['\x22']), atom (.number (.finite true .zero))]).IsPure ∧
      (list [atom (.string ['\x22']), atom (.number (.finite false .zero))]).IsPure ∧
      ∃ text,
        (list [atom (.identifier ['\x22']), atom (.number (.finite true .zero))]).jsonText =
            .ok text ∧
          (list [atom (.string ['\x22']), atom (.number (.finite false .zero))]).jsonText =
            .ok text ∧
          JsonValue.ofText? .plain text =
            some (.array [.string ['\x22'], .number (.finite false .zero)]) := by
  have hpure : (list [atom (.identifier ['\x22']),
      atom (.number (.finite true .zero))]).IsPure := by simp
  have hpure' : (list [atom (.string ['\x22']),
      atom (.number (.finite false .zero))]).IsPure := by simp
  obtain ⟨text, htext, -, hplain, hsame⟩ := ofText?_jsonText hpure
  refine ⟨hpure, hpure', text, htext, (hsame _ hpure').2 ?_, hplain ?_⟩
  · rfl
  · intro x hx
    obtain rfl : x = .finite true .zero := by simpa using hx
    rfl

end Node

end Sexp
