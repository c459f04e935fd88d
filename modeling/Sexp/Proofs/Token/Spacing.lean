import Mathlib.Data.List.Chain
import Sexp.Node.Source
import Sexp.Proofs.Token.Scan

/-!
# Spacing

Tokens are laid out by putting blanks before the first one and after each of them.  The
layout is cut into the same tokens again exactly when no two words stand next to each other
with nothing between them: two such words are one token, whatever follows, while a
parenthesis keeps apart what stands beside it.  With one space between neighbours, the
tokens of any text come back.
-/

namespace Sexp

namespace Text

/-- A text that is one parenthesis. -/
def IsParenthesis (text : Text) : Prop := text = ['('] ∨ text = [')']

instance (text : Text) : Decidable text.IsParenthesis := inferInstanceAs (Decidable (_ ∨ _))

theorem isParenthesis_iff_exists (text : Text) :
    text.IsParenthesis ↔ ∃ c, isParenthesis c = true ∧ text = [c] := by
  constructor
  · rintro (rfl | rfl)
    · exact ⟨'(', rfl, rfl⟩
    · exact ⟨')', rfl, rfl⟩
  · rintro ⟨c, hparen, rfl⟩
    rcases (isParenthesis_iff c).1 hparen with rfl | rfl
    · exact .inl rfl
    · exact .inr rfl

theorem IsToken.isWord {token : Text} (htoken : token.IsToken) (hnot : ¬token.IsParenthesis) :
    token.IsWord :=
  htoken.resolve_left (mt (isParenthesis_iff_exists token).2 hnot)

theorem tokens_of_isToken {token : Text} (htoken : token.IsToken) : token.tokens = [token] := by
  rcases htoken with ⟨c, hparen, rfl⟩ | hword
  · rw [tokens_cons_parenthesis hparen, tokens_nil]
  · exact tokens_of_isWord hword

/-- Blanks at the end of a text make no token. -/
theorem tokens_append_only_blanks (text : Text) {blanks : Text}
    (hblanks : ∀ c ∈ blanks, isBlank c = true) : tokens (text ++ blanks) = text.tokens := by
  cases blanks with
  | nil => rw [List.append_nil]
  | cons c blanks =>
      have hcut := tokens_append_blanks (List.cons_ne_nil c blanks) hblanks text []
      rwa [List.append_nil, tokens_nil, List.append_nil] at hcut

/-- Two words that nothing keeps apart are not cut, whatever follows. -/
theorem tokens_ne_of_isWord {word word' : Text} (hword : word.IsWord) (hword' : word'.IsWord)
    (text : Text) (others : List Text) : tokens (word ++ word' ++ text) ≠ word :: others := by
  intro htokens
  have hne : word ++ word' ≠ [] := by simp [hword.1]
  obtain ⟨token, rest, hscan, hprefix⟩ := exists_scanFrom_eq_cons hne text
  rw [scanFrom_eq_tokens (isPlain_append.2 ⟨hword.2, hword'.2⟩), htokens] at hscan
  obtain ⟨rfl, -⟩ := List.cons.inj hscan
  have hlength := hprefix.length_le
  have hpositive := List.length_pos_of_ne_nil hword'.1
  rw [List.length_append] at hlength
  omega

/-- A token and the blanks after it, of which there may be none. -/
structure Piece where
  token : Text
  token_isToken : token.IsToken
  blanks : Text
  blanks_isBlank : ∀ c ∈ blanks, isBlank c = true

namespace Piece

def text (piece : Piece) : Text := piece.token ++ piece.blanks

/-- Something keeps the tokens of neighbours apart: blanks between them, or one of the two
tokens by being a parenthesis. -/
def IsApart (piece next : Piece) : Prop :=
  piece.blanks ≠ [] ∨ piece.token.IsParenthesis ∨ next.token.IsParenthesis

instance : DecidableRel IsApart := fun _ _ => inferInstanceAs (Decidable (_ ∨ _ ∨ _))

/-- A token that is kept apart from the next one is cut off. -/
theorem tokens_append_of_isApart {piece next : Piece} (hapart : piece.IsApart next)
    (text : Text) : tokens (piece.text ++ (next.token ++ text)) =
      piece.token :: tokens (next.token ++ text) := by
  have htoken := tokens_of_isToken piece.token_isToken
  rw [Piece.text]
  by_cases hblanks : piece.blanks = []
  · rw [hblanks, List.append_nil]
    rcases hapart.resolve_left (not_not_intro hblanks) with hparen | hparen
    · obtain ⟨c, hc, htext⟩ := (isParenthesis_iff_exists _).1 hparen
      rw [htext, List.singleton_append, tokens_cons_parenthesis hc]
    · obtain ⟨c, hc, htext⟩ := (isParenthesis_iff_exists _).1 hparen
      rw [htext, List.singleton_append, tokens_append_parenthesis hc, htoken,
        tokens_cons_parenthesis hc, List.singleton_append]
  · rw [tokens_append_blanks hblanks piece.blanks_isBlank, htoken, List.singleton_append]

theorem tokens_append_ne_of_not_isApart {piece next : Piece} (hnot : ¬piece.IsApart next)
    (text : Text) (others : List Text) :
    tokens (piece.text ++ (next.token ++ text)) ≠ piece.token :: others := by
  obtain ⟨hblanks, hparen, hparen'⟩ : piece.blanks = [] ∧ ¬piece.token.IsParenthesis ∧
      ¬next.token.IsParenthesis := by
    simpa [IsApart] using hnot
  rw [Piece.text, hblanks, List.append_nil, ← List.append_assoc]
  exact tokens_ne_of_isWord (piece.token_isToken.isWord hparen)
    (next.token_isToken.isWord hparen') text others

/-- Pieces in a row are cut into their tokens exactly when neighbours are kept apart. -/
theorem tokens_flatMap_text_iff : ∀ pieces : List Piece,
    tokens (pieces.flatMap text) = pieces.map token ↔ pieces.IsChain IsApart
  | [] => iff_of_true tokens_nil .nil
  | [piece] => by
      refine iff_of_true ?_ (.singleton piece)
      rw [List.flatMap_singleton, Piece.text, tokens_append_only_blanks _ piece.blanks_isBlank]
      exact tokens_of_isToken piece.token_isToken
  | piece :: next :: rest => by
      have htext : (piece :: next :: rest).flatMap text =
          piece.text ++ (next.token ++ (next.blanks ++ rest.flatMap text)) := by
        simp [Piece.text]
      rw [List.isChain_cons_cons, htext]
      by_cases hapart : piece.IsApart next
      · have hrest := tokens_flatMap_text_iff (next :: rest)
        rw [List.flatMap_cons, Piece.text, List.append_assoc] at hrest
        rw [tokens_append_of_isApart hapart, List.map_cons, List.cons_inj_right, hrest]
        exact (and_iff_right hapart).symm
      · exact iff_of_false (tokens_append_ne_of_not_isApart hapart _ _) fun h => hapart h.1

end Piece

/-- Tokens laid out, with blanks before the first of them, of which there may be none. -/
structure Layout where
  lead : Text
  lead_isBlank : ∀ c ∈ lead, isBlank c = true
  pieces : List Piece

namespace Layout

def text (layout : Layout) : Text := layout.lead ++ layout.pieces.flatMap Piece.text

def tokens (layout : Layout) : List Text := layout.pieces.map Piece.token

/-- No two words stand next to each other with nothing between them. -/
def IsApart (layout : Layout) : Prop := layout.pieces.IsChain Piece.IsApart

instance (layout : Layout) : Decidable layout.IsApart :=
  inferInstanceAs (Decidable (List.IsChain _ _))

end Layout

end Text

theorem tokens_spaced_cons (text : Text) (texts : List Text) :
    (spaced (text :: texts)).tokens = text.tokens ++ (spaced texts).tokens := by
  cases texts with
  | nil => simp [spaced]
  | cons text' rest =>
      have hspace : spaced (text :: text' :: rest) = text ++ ' ' :: spaced (text' :: rest) := by
        simp [spaced, List.intercalate_cons_cons]
      rw [hspace, Text.tokens_append_blank isBlank_space]

theorem tokens_spaced {texts : List Text} (htexts : ∀ text ∈ texts, text.IsToken) :
    (spaced texts).tokens = texts := by
  induction texts with
  | nil => exact Text.tokens_nil
  | cons text texts ih =>
      rw [List.forall_mem_cons] at htexts
      rw [tokens_spaced_cons, Text.tokens_of_isToken htexts.1, ih htexts.2, List.singleton_append]

/-- Laid out with any blanks before, between and after them, tokens are cut into themselves
again exactly when there are blanks between two neighbours that are both words.  The tokens
of a text come back from it with one space between them. -/
theorem tokens_layout (layout : Text.Layout) (source : Text) :
    (layout.text.tokens = layout.tokens ↔ layout.IsApart) ∧
      (spaced source.tokens).tokens = source.tokens := by
  refine ⟨?_, tokens_spaced fun _ => Text.isToken_of_mem_tokens⟩
  rw [Text.Layout.text, Text.tokens_blanks_append layout.lead_isBlank]
  exact Text.Piece.tokens_flatMap_text_iff layout.pieces

example :
    let opening : Text.Piece := ⟨['('], .inl ⟨'(', rfl, rfl⟩, [], nofun⟩
    let f : Text.Piece := ⟨['f'], .inr (by decide), [], nofun⟩
    let x : Text.Piece := ⟨['x'], .inr (by decide), [], nofun⟩
    let layout : List Text.Piece → Text.Layout := fun pieces => ⟨[], nofun, pieces⟩
    (layout [f, opening, x]).text.tokens = [['f'], ['('], ['x']] ∧
      (layout [f, opening, x]).IsApart ∧
      (layout [opening, f, x]).text.tokens = [['('], ['f', 'x']] ∧
      ¬(layout [opening, f, x]).IsApart := by
  decide +kernel

end Sexp
