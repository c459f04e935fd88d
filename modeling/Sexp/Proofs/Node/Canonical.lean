import Sexp.Proofs.Node.RoundTrip

/-!
# Source text as a canonical form

Formatting a source text reads it and writes what has been read.  The text of a tree does
not depend on the sign of a zero, and it is read as the tree without that sign.  So two
source texts are formatted alike exactly when equal trees are read from them, however
their numbers are spelled and their tokens laid out, and formatting a second time changes
nothing.
-/

namespace Sexp

theorem Atom.source_dropZeroSign (a : Atom) : a.dropZeroSign.source = a.source := by
  cases a with
  | identifier name => rfl
  | string text => rfl
  | number x => exact sourceNumbers.write_dropZeroSign x

namespace Node

mutual

/-- The sign of a zero is not written. -/
theorem source_dropZeroSign : ∀ node : Node, node.dropZeroSign.source = node.source
  | atom a => by rw [dropZeroSign, source, source, Atom.source_dropZeroSign]
  | list items => by rw [dropZeroSign, source, source, sources_dropZeroSignAll items]
  | foreign _ => rfl

theorem sources_dropZeroSignAll : ∀ nodes : List Node,
    sources (dropZeroSignAll nodes) = sources nodes
  | [] => rfl
  | node :: rest => by
      rw [dropZeroSignAll, sources, sources, source_dropZeroSign node,
        sources_dropZeroSignAll rest]

end

/-- Trees of readable atoms are equal when they are the same up to the sign of zero. -/
theorem equalAll_iff_of_readable {nodes nodes' : List Node}
    (hreadable : ∀ node ∈ nodes, ∀ a ∈ node, a.IsReadable) :
    equalAll nodes nodes' = true ↔ dropZeroSignAll nodes = dropZeroSignAll nodes' := by
  rw [equalAll_iff]
  exact and_iff_right fun node hnode a ha => (hreadable node hnode a ha).ne_nan

end Node

/-- Reads a source text and writes the trees that have been read, with one space between
neighbours.  Where this is not possible, there is a message in the place of the text. -/
def formatSource (mode : Mode) (source : Text) : Except Text Text := do
  let nodes ← (readSource mode source).mapError ReadError.message
  let texts ← (Node.sources nodes).mapError NotNode.message
  return spaced texts

theorem formatSource_eq_ok {mode : Mode} {source : Text} {nodes : List Node}
    {texts : List Text} (hread : readSource mode source = .ok nodes)
    (hsources : Node.sources nodes = .ok texts) :
    formatSource mode source = .ok (spaced texts) := by
  rw [formatSource, hread]
  show ((Node.sources nodes).mapError NotNode.message >>= fun texts => .ok (spaced texts)) = _
  rw [hsources]
  rfl

/-- A text that can be read has a formatted text, which is read in either mode as the same
trees up to the sign of zero. -/
theorem exists_formatSource {mode : Mode} {source : Text} {nodes : List Node}
    (hread : readSource mode source = .ok nodes) :
    ∃ texts, Node.sources nodes = .ok texts ∧
      formatSource mode source = .ok (spaced texts) ∧
      ∀ again, readSource again (spaced texts) = .ok (Node.dropZeroSignAll nodes) := by
  obtain ⟨hpure, hreadable⟩ := Node.readable_of_readSource hread
  obtain ⟨texts, hsources, hback⟩ := Node.exists_sources_readSource hpure
  exact ⟨texts, hsources, formatSource_eq_ok hread hsources, hback hreadable⟩

/-- Two texts that can be read, each in a mode of its own, are formatted alike exactly when
equal trees are read from them; and formatting what has been formatted, in either mode,
changes nothing. -/
theorem formatSource_canonical {mode mode' : Mode} {source source' : Text}
    {nodes nodes' : List Node} (hread : readSource mode source = .ok nodes)
    (hread' : readSource mode' source' = .ok nodes') :
    ∃ text text', formatSource mode source = .ok text ∧
      formatSource mode' source' = .ok text' ∧
      (text = text' ↔ Node.equalAll nodes nodes' = true) ∧
      ∀ again, formatSource again text = .ok text := by
  obtain ⟨texts, hsources, hformat, hback⟩ := exists_formatSource hread
  obtain ⟨texts', hsources', hformat', hback'⟩ := exists_formatSource hread'
  refine ⟨spaced texts, spaced texts', hformat, hformat', ?_, fun again => ?_⟩
  · rw [Node.equalAll_iff_of_readable (Node.readable_of_readSource hread).2]
    constructor
    · intro htext
      -- The text decides the trees, because it is read as them.
      have hsame := hback mode
      rw [htext, hback' mode] at hsame
      exact (Except.ok.inj hsame).symm
    · intro hdrop
      have hsame : Node.sources nodes = Node.sources nodes' := by
        rw [← Node.sources_dropZeroSignAll nodes, hdrop, Node.sources_dropZeroSignAll]
      rw [hsources, hsources'] at hsame
      rw [Except.ok.inj hsame]
  · apply formatSource_eq_ok (hback again)
    rw [Node.sources_dropZeroSignAll, hsources]

/-- The spelling of the numbers, the layout and what follows a stray closing make no
difference to the formatted text. -/
theorem formatSource_canonical_spellings :
    let x : Atom := Atom.ofToken "7.5".toList
    let nodes : List Node := [.list [.atom (.identifier ['f']), .atom x,
      .atom (.number (.finite true .zero))]]
    let nodes' : List Node := [.list [.atom (.identifier ['f']), .atom x,
      .atom (.number (.finite false .zero))]]
    readSource .strict "(f +007.50 -0)".toList = .ok nodes ∧
      readSource .lenient "(f\n7.5 .0) ) (".toList = .ok nodes' ∧
      ∃ text, formatSource .strict "(f +007.50 -0)".toList = .ok text ∧
        formatSource .lenient "(f\n7.5 .0) ) (".toList = .ok text ∧
        ∀ again, formatSource again text = .ok text := by
  intro x nodes nodes'
  have hevents : (Text.tokens "(f +007.50 -0)".toList).map Event.ofToken =
      [.opening, .atom (.identifier ['f']), .atom x, .atom (.number (.finite true .zero)),
        .closing] := by
    decide +kernel
  have hevents' : (Text.tokens "(f\n7.5 .0) ) (".toList).map Event.ofToken =
      [.opening, .atom (.identifier ['f']), .atom x, .atom (.number (.finite false .zero)),
        .closing, .closing, .opening] := by
    decide +kernel
  have hread : readSource .strict "(f +007.50 -0)".toList = .ok nodes := by
    rw [readSource, readTokens, hevents]
    rfl
  have hread' : readSource .lenient "(f\n7.5 .0) ) (".toList = .ok nodes' := by
    rw [readSource, readTokens, hevents']
    rfl
  obtain ⟨text, text', hformat, hformat', hsame, hagain⟩ := formatSource_canonical hread hread'
  have hequal : Node.equalAll nodes nodes' = true := by
    decide +kernel
  obtain rfl := hsame.2 hequal
  exact ⟨hread, hread', text, hformat, hformat', hagain⟩

end Sexp
