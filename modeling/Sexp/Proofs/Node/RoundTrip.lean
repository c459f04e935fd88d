import Sexp.Proofs.Node.Leaves
import Sexp.Proofs.Reader.Layout
import Sexp.Proofs.Token.Spacing

/-!
# Trees written and read again

An atom is readable when its source text is a single token that is classified as the
atom itself.  The source text of a tree of readable atoms has the layout of that tree,
up to the sign of zero, and is read as it.  Conversely the reader makes readable atoms
only, and equality respects readability, so a tree with an atom that is not readable
never comes back.
-/

namespace Sexp

namespace Atom

/-- An atom that comes back when its source text is read: an identifier whose name is a
word and is classified as an identifier, a string without parentheses and blanks, or a
finite number. -/
def IsReadable : Atom → Prop
  | identifier name => name.IsWord ∧ ofToken name = identifier name
  | string text => text.IsPlain
  | number x => x.isFinite = true

theorem IsReadable.isClassified {a : Atom} (hreadable : a.IsReadable) : a.IsClassified := by
  cases a with
  | identifier name => exact hreadable.2
  | string text => trivial
  | number x => exact hreadable

theorem isPlain_quoted_iff (text : Text) :
    Text.IsPlain ('\x22' :: text ++ ['\x22']) ↔ text.IsPlain := by
  have hquote : isParenthesis '\x22' = false ∧ isBlank '\x22' = false := by decide
  rw [Text.isPlain_append, Text.isPlain_cons, Text.isPlain_cons]
  constructor
  · intro hquoted
    exact hquoted.1.2
  · intro hplain
    exact ⟨⟨hquote, hplain⟩, hquote, Text.isPlain_nil⟩

theorem IsReadable.isWord_source {a : Atom} (hreadable : a.IsReadable) : a.source.IsWord := by
  cases a with
  | identifier name => exact hreadable.1
  | string text =>
      constructor
      · simp [source]
      · exact (isPlain_quoted_iff text).2 hreadable
  | number x =>
      have hnumber := Binary64.toNumber?_write hreadable
      obtain ⟨numeral, hnumeral, -⟩ := Option.bind_eq_some_iff.1 hnumber
      exact Numeral.isWord_of_ofText? hnumeral

theorem isReadable_ofToken {token : Text} (hword : token.IsWord) :
    (ofToken token).IsReadable := by
  rcases ofToken_cases token with ⟨text, htoken, hatom⟩ | ⟨x, hfinite, hatom⟩ | hatom
  · rw [hatom]
    exact (isPlain_quoted_iff text).1 (htoken ▸ hword.2)
  · rw [hatom]
    exact hfinite
  · rw [hatom]
    exact ⟨hword, hatom⟩

theorem isReadable_dropZeroSign_iff (a : Atom) : a.dropZeroSign.IsReadable ↔ a.IsReadable := by
  cases a with
  | identifier name => exact Iff.rfl
  | string text => exact Iff.rfl
  | number x => simp [dropZeroSign, IsReadable]

theorem IsReadable.ne_nan {a : Atom} (hreadable : a.IsReadable) : a ≠ number .nan := by
  rintro rfl
  exact Bool.false_ne_true hreadable

end Atom

namespace Event

theorem ofToken_of_isWord {token : Text} (hword : token.IsWord) :
    ofToken token = .atom (Atom.ofToken token) := by
  have hopen : token ≠ ['('] := by
    rintro rfl
    exact absurd (hword.2 '(' List.mem_cons_self).1 (by decide)
  have hclose : token ≠ [')'] := by
    rintro rfl
    exact absurd (hword.2 ')' List.mem_cons_self).1 (by decide)
  rw [ofToken, if_neg hopen, if_neg hclose]

/-- The event of a token that cutting can give is a parenthesis or a readable atom. -/
theorem ofToken_of_isToken {token : Text} (htoken : token.IsToken) :
    ofToken token = .opening ∨ ofToken token = .closing ∨
      ∃ a : Atom, a.IsReadable ∧ ofToken token = .atom a := by
  rcases htoken with ⟨c, hparen, rfl⟩ | hword
  · rcases (isParenthesis_iff c).1 hparen with rfl | rfl
    · exact .inl rfl
    · exact .inr (.inl rfl)
  · exact .inr (.inr ⟨_, Atom.isReadable_ofToken hword, ofToken_of_isWord hword⟩)

end Event

theorem tokens_parenthesized (text : Text) :
    Text.tokens ('(' :: text ++ [')']) = ['('] :: (text.tokens ++ [[')']]) := by
  rw [List.cons_append, Text.tokens_cons_parenthesis rfl, Text.tokens_append_parenthesis rfl,
    Text.tokens_nil]

namespace Node

theorem source_list {items : List Node} {texts : List Text}
    (hsources : sources items = .ok texts) :
    (list items).source = .ok ('(' :: spaced texts ++ [')']) := by
  rw [source, hsources]
  rfl

theorem sources_cons {node : Node} {rest : List Node} {text : Text} {texts : List Text}
    (hsource : node.source = .ok text) (hsources : sources rest = .ok texts) :
    sources (node :: rest) = .ok (text :: texts) := by
  rw [sources, hsource, hsources]
  rfl

mutual

/-- A tree of nodes has a source text, and if its atoms are readable, the tokens of the
text have the layout of the tree, up to the sign of zero. -/
theorem exists_source : ∀ {node : Node}, node.IsPure →
    ∃ text, node.source = .ok text ∧ ((∀ a ∈ node, a.IsReadable) →
      text.tokens.map Event.ofToken = node.dropZeroSign.events)
  | atom a, _ => by
      refine ⟨a.source, rfl, fun hreadable => ?_⟩
      have ha : a.IsReadable := hreadable a ((mem_atom_iff a a).2 rfl)
      rw [Text.tokens_of_isWord ha.isWord_source, List.map_singleton,
        Event.ofToken_of_isWord ha.isWord_source, Atom.ofToken_source ha.isClassified]
      rfl
  | list items, hpure => by
      obtain ⟨texts, hsources, hevents⟩ := exists_sources ((isPure_list_iff items).1 hpure)
      refine ⟨'(' :: spaced texts ++ [')'], source_list hsources, fun hreadable => ?_⟩
      -- The parentheses stay tokens of their own beside whatever the elements are.
      have hitems := hevents (forall_mem_list_iff.1 hreadable)
      rw [tokens_parenthesized, List.map_cons, List.map_append, hitems, dropZeroSign, events]
      rfl
  | foreign typeName, hpure => absurd hpure (not_isPure_foreign typeName)

theorem exists_sources : ∀ {nodes : List Node}, (∀ node ∈ nodes, node.IsPure) →
    ∃ texts, sources nodes = .ok texts ∧ ((∀ node ∈ nodes, ∀ a ∈ node, a.IsReadable) →
      (spaced texts).tokens.map Event.ofToken = eventsAll (dropZeroSignAll nodes))
  | [], _ => ⟨[], rfl, fun _ => by rw [spaced, List.intercalate_nil, Text.tokens_nil]; rfl⟩
  | node :: rest, hpure => by
      rw [List.forall_mem_cons] at hpure
      obtain ⟨text, hsource, hevents⟩ := exists_source hpure.1
      obtain ⟨texts, hsources, hrest⟩ := exists_sources hpure.2
      refine ⟨text :: texts, sources_cons hsource hsources, fun hreadable => ?_⟩
      rw [List.forall_mem_cons] at hreadable
      rw [tokens_spaced_cons, List.map_append, hevents hreadable.1, hrest hreadable.2,
        dropZeroSignAll, eventsAll]

end

/-- In either mode the source texts of trees of readable atoms are read as these trees,
up to the sign of zero. -/
theorem exists_sources_readSource {nodes : List Node} (hpure : ∀ node ∈ nodes, node.IsPure) :
    ∃ texts, sources nodes = .ok texts ∧ ((∀ node ∈ nodes, ∀ a ∈ node, a.IsReadable) →
      ∀ mode, readSource mode (spaced texts) = .ok (dropZeroSignAll nodes)) := by
  obtain ⟨texts, hsources, hevents⟩ := exists_sources hpure
  refine ⟨texts, hsources, fun hreadable mode => ?_⟩
  rw [readSource, readTokens, hevents hreadable, readEvents_eventsAll]

theorem equalAll_of_readable {nodes : List Node}
    (hreadable : ∀ node ∈ nodes, ∀ a ∈ node, a.IsReadable) :
    equalAll (dropZeroSignAll nodes) nodes = true :=
  equalAll_dropZeroSignAll fun node hnode a ha => (hreadable node hnode a ha).ne_nan

/-- The reader makes trees of readable atoms only. -/
theorem readable_of_readSource {mode : Mode} {source : Text} {nodes : List Node}
    (hread : readSource mode source = .ok nodes) :
    (∀ node ∈ nodes, node.IsPure) ∧ ∀ node ∈ nodes, ∀ a ∈ node, a.IsReadable := by
  have hevents : ∀ node ∈ nodes, ∀ event ∈ node.events,
      event = .opening ∨ event = .closing ∨ ∃ a : Atom, a.IsReadable ∧ event = .atom a := by
    -- An event of the trees is the event of one of the tokens that were cut.
    intro node hnode event hevent
    have hmem := (eventsAll_prefix_of_readEvents hread).subset
      ((mem_eventsAll_iff event nodes).2 ⟨node, hnode, hevent⟩)
    obtain ⟨token, htoken, rfl⟩ := List.mem_map.1 hmem
    exact Event.ofToken_of_isToken (Text.isToken_of_mem_tokens htoken)
  constructor
  · intro node hnode typeName hforeign
    simpa using hevents node hnode _ hforeign
  · intro node hnode a ha
    simpa using hevents node hnode _ ha

/-- Whatever the reader makes of a source text comes back when it is written, one space
between the trees, and read strictly: every tree, list, atom and content is the same,
and every number bit for bit except that negative zero becomes positive zero. -/
theorem readSource_spaced_sources {mode : Mode} {source : Text} {nodes : List Node}
    (hread : readSource mode source = .ok nodes) :
    ∃ texts, sources nodes = .ok texts ∧
      readSource .strict (spaced texts) = .ok (dropZeroSignAll nodes) ∧
      equalAll (dropZeroSignAll nodes) nodes = true := by
  obtain ⟨hpure, hreadable⟩ := readable_of_readSource hread
  obtain ⟨texts, hsources, hback⟩ := exists_sources_readSource hpure
  exact ⟨texts, hsources, hback hreadable .strict, equalAll_of_readable hreadable⟩

/-- The lenient reader drops what follows the stray closing, and the tree before it, in
which negative zero stands, comes back with positive zero. -/
theorem readSource_spaced_sources_truncated :
    readSource .lenient "(f -0.0) ) (".toList =
        .ok [list [atom (.identifier ['f']), atom (.number (.finite true .zero))]] ∧
      ∃ texts,
        sources [list [atom (.identifier ['f']), atom (.number (.finite true .zero))]] =
            .ok texts ∧
          readSource .strict (spaced texts) =
            .ok [list [atom (.identifier ['f']), atom (.number (.finite false .zero))]] := by
  have hevents : (Text.tokens "(f -0.0) ) (".toList).map Event.ofToken =
      [.opening, .atom (.identifier ['f']), .atom (.number (.finite true .zero)), .closing,
        .closing, .opening] := by
    decide +kernel
  have hread : readSource .lenient "(f -0.0) ) (".toList =
      .ok [list [atom (.identifier ['f']), atom (.number (.finite true .zero))]] := by
    rw [readSource, readTokens, hevents]
    rfl
  obtain ⟨texts, hsources, hback, -⟩ := readSource_spaced_sources hread
  exact ⟨hread, texts, hsources, hback⟩

theorem readable_of_equalAll {nodes nodes' : List Node}
    (hequal : equalAll nodes nodes' = true)
    (hreadable : ∀ node ∈ nodes, ∀ a ∈ node, a.IsReadable) :
    ∀ node ∈ nodes', ∀ a ∈ node, a.IsReadable := by
  intro node' hnode' a ha
  -- Up to the sign of zero, an atom on one side also stands on the other.
  have hdrop := ((equalAll_iff nodes nodes').1 hequal).2
  have hmem := (mem_dropZeroSignAll_iff a.dropZeroSign nodes').2 ⟨node', hnode', a, ha, rfl⟩
  rw [← hdrop] at hmem
  obtain ⟨node, hnode, b, hb, hba⟩ := (mem_dropZeroSignAll_iff _ nodes).1 hmem
  have hb := hreadable node hnode b hb
  rwa [← Atom.isReadable_dropZeroSign_iff, hba, Atom.isReadable_dropZeroSign_iff] at hb

/-- A tree comes back from its source text, in either mode, exactly when all its atoms are
readable. -/
theorem readSource_source_iff_readable {node : Node} (hpure : node.IsPure) :
    ∃ text, node.source = .ok text ∧
      ∀ mode, (∃ nodes, readSource mode text = .ok nodes ∧ equalAll nodes [node] = true) ↔
        ∀ a ∈ node, a.IsReadable := by
  obtain ⟨text, hsource, hevents⟩ := exists_source hpure
  refine ⟨text, hsource, fun mode => ?_⟩
  constructor
  · rintro ⟨nodes, hread, hequal⟩
    have hreadable := readable_of_equalAll hequal (readable_of_readSource hread).2
    exact hreadable node List.mem_cons_self
  · intro hreadable
    have hall : ∀ node' ∈ [node], ∀ a ∈ node', a.IsReadable := by simpa using hreadable
    refine ⟨dropZeroSignAll [node], ?_, equalAll_of_readable hall⟩
    rw [readSource, readTokens, hevents hreadable, dropZeroSignAll, dropZeroSignAll]
    simpa [eventsAll] using readEvents_eventsAll mode [node.dropZeroSign]

/-- A string that is a closing parenthesis never comes back, whatever stands beside it. -/
theorem readSource_source_unreadable :
    (list [atom (.identifier ['f']), atom (.string [')'])]).IsPure ∧
      ∃ text, (list [atom (.identifier ['f']), atom (.string [')'])]).source = .ok text ∧
        ∀ mode, ¬∃ nodes, readSource mode text = .ok nodes ∧
          equalAll nodes [list [atom (.identifier ['f']), atom (.string [')'])]] = true := by
  have hpure : (list [atom (.identifier ['f']), atom (.string [')'])]).IsPure := by simp
  obtain ⟨text, hsource, hiff⟩ := readSource_source_iff_readable hpure
  refine ⟨hpure, text, hsource, fun mode hback => ?_⟩
  have hreadable : Atom.IsReadable (.string [')']) := (hiff mode).1 hback _ (by simp)
  exact absurd (hreadable ')' List.mem_cons_self).1 (by decide)

end Node

end Sexp
