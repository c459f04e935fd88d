import Sexp.Node.Source
import Sexp.Proofs.Decimal.ReadBack

/-!
# Atoms written and classified again

The atom of a token is one of three: the string between double quotes, a finite
number, or the token itself as an identifier.  Its source text is classified as the
same atom again, up to the sign of zero.
-/

namespace Sexp

theorem Text.unquoted?_eq_some_iff (token text : Text) :
    token.unquoted? = some text ↔ token = '\x22' :: text ++ ['\x22'] := by
  cases token with
  | nil => simp [unquoted?]
  | cons first rest =>
      constructor
      · intro hunquoted
        simp only [unquoted?] at hunquoted
        split at hunquoted
        · next hquotes =>
          obtain ⟨rfl, hlast⟩ := hquotes
          obtain ⟨inner, rfl⟩ := List.getLast?_eq_some_iff.1 hlast
          have htext : inner = text := by simpa using hunquoted
          rw [htext, List.cons_append]
        · contradiction
      · intro htoken
        obtain ⟨rfl, rfl⟩ := List.cons.inj htoken
        simp [unquoted?]

namespace Atom

/-- The atom with the sign of zero dropped. -/
def dropZeroSign : Atom → Atom
  | identifier name => identifier name
  | string text => string text
  | number x => number x.dropZeroSign

@[simp] theorem dropZeroSign_dropZeroSign (a : Atom) :
    a.dropZeroSign.dropZeroSign = a.dropZeroSign := by
  cases a <;> simp [dropZeroSign]

theorem dropZeroSign_eq_nan_iff (a : Atom) :
    a.dropZeroSign = number .nan ↔ a = number .nan := by
  cases a <;> simp [dropZeroSign]

/-- Two atoms are equal when they are no NaN and are the same atom up to the sign of
zero. -/
theorem equal_iff (a b : Atom) :
    a.equal b = true ↔ a ≠ number .nan ∧ a.dropZeroSign = b.dropZeroSign := by
  cases a with
  | identifier name => cases b <;> simp [equal, dropZeroSign]
  | string text => cases b <;> simp [equal, dropZeroSign]
  | number x => cases b <;> simp [equal, dropZeroSign, Binary64.equal_iff]

theorem ofToken_of_quoted (text : Text) :
    ofToken ('\x22' :: text ++ ['\x22']) = string text := by
  have hunquoted := (Text.unquoted?_eq_some_iff _ text).2 rfl
  simp only [ofToken, hunquoted]

theorem ofToken_of_toNumber? {token : Text} {x : Binary64}
    (hnumber : token.toNumber? = some x) : ofToken token = number x := by
  obtain ⟨numeral, hnumeral, -⟩ := Option.bind_eq_some_iff.1 hnumber
  simp only [ofToken, Text.unquoted?_eq_none_of_ofText? hnumeral, hnumber]

theorem isFinite_of_toNumber? {token : Text} {x : Binary64}
    (hnumber : token.toNumber? = some x) : x.isFinite = true := by
  obtain ⟨numeral, -, hvalue⟩ := Option.bind_eq_some_iff.1 hnumber
  obtain ⟨m, -, rfl⟩ := Option.map_eq_some_iff.1 hvalue
  rfl

/-- The atom of a token is the string between its double quotes, a finite number, or the
token as an identifier. -/
theorem ofToken_cases (token : Text) :
    (∃ text, token = '\x22' :: text ++ ['\x22'] ∧ ofToken token = string text) ∨
      (∃ x : Binary64, x.isFinite = true ∧ ofToken token = number x) ∨
      ofToken token = identifier token := by
  cases hunquoted : token.unquoted? with
  | some text =>
      obtain rfl := (Text.unquoted?_eq_some_iff _ _).1 hunquoted
      exact .inl ⟨text, rfl, ofToken_of_quoted text⟩
  | none =>
      cases hnumber : token.toNumber? with
      | some x =>
          exact .inr (.inl ⟨x, isFinite_of_toNumber? hnumber, ofToken_of_toNumber? hnumber⟩)
      | none => exact .inr (.inr (by simp only [ofToken, hunquoted, hnumber]))

/-- An atom that classifying a token can give: every string, every finite number, and
the identifiers with a name that is classified as an identifier. -/
def IsClassified : Atom → Prop
  | identifier name => ofToken name = identifier name
  | string _ => True
  | number x => x.isFinite = true

theorem isClassified_ofToken (token : Text) : (ofToken token).IsClassified := by
  rcases ofToken_cases token with ⟨text, -, hatom⟩ | ⟨x, hfinite, hatom⟩ | hatom
  · rw [hatom]
    trivial
  · rw [hatom]
    exact hfinite
  · rw [hatom]
    exact hatom

/-- The source text of an atom that classifying can give is classified as that atom, up
to the sign of zero. -/
theorem ofToken_source {a : Atom} (hclassified : a.IsClassified) :
    ofToken a.source = a.dropZeroSign := by
  cases a with
  | identifier name => exact hclassified
  | string text => exact ofToken_of_quoted text
  | number x => exact ofToken_of_toNumber? (Binary64.toNumber?_write hclassified)

theorem equal_dropZeroSign {a : Atom} (hclassified : a.IsClassified) :
    a.dropZeroSign.equal a = true := by
  cases a with
  | identifier name => simp [equal, dropZeroSign]
  | string text => simp [equal, dropZeroSign]
  | number x =>
      have hnan : x ≠ .nan := by
        rintro rfl
        exact Bool.false_ne_true hclassified
      simp [equal, dropZeroSign, Binary64.equal_iff, hnan]

/-- For every text, writing the atom of the text and classifying what is written gives
that atom again: the same kind and content, and the same number bit for bit except that
negative zero becomes positive zero. -/
theorem ofToken_source_ofToken (token : Text) :
    ofToken (ofToken token).source = (ofToken token).dropZeroSign ∧
      (ofToken (ofToken token).source).equal (ofToken token) = true := by
  have hclassified := isClassified_ofToken token
  have hsource := ofToken_source hclassified
  refine ⟨hsource, ?_⟩
  rw [hsource]
  exact equal_dropZeroSign hclassified

end Atom

end Sexp
