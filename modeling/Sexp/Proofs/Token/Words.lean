import Sexp.Token.Basic

/-!
# Cutting text at blanks and parentheses

Blanks and parentheses cut a text in two pieces whose tokens do not depend on each
other: a blank is dropped, and a parenthesis is a token between the two.  A text
without either is at most one token.  From these three facts follow both what the
tokens of a text can be and which texts come back as their own only token.
-/

namespace Sexp

theorem isParenthesis_iff (c : Char) : isParenthesis c = true ↔ c = '(' ∨ c = ')' := by
  simp [isParenthesis]

theorem isBlank_of_isParenthesis {c : Char} (hparen : isParenthesis c = true) :
    isBlank c = false := by
  rcases (isParenthesis_iff c).1 hparen with rfl | rfl <;> decide

theorem isParenthesis_of_isBlank {c : Char} (hblank : isBlank c = true) :
    isParenthesis c = false := by
  rw [Bool.eq_false_iff]
  intro hparen
  rw [isBlank_of_isParenthesis hparen] at hblank
  contradiction

namespace Text

/-- A text without parentheses and blanks. -/
def IsPlain (text : Text) : Prop :=
  ∀ c ∈ text, isParenthesis c = false ∧ isBlank c = false

instance (text : Text) : Decidable text.IsPlain := List.decidableBAll _ text

/-- A text that can stand as a token beside other tokens. -/
def IsWord (text : Text) : Prop := text ≠ [] ∧ text.IsPlain

instance (text : Text) : Decidable text.IsWord := inferInstanceAs (Decidable (_ ∧ _))

/-- A text that cutting another one can give: a parenthesis or a word. -/
def IsToken (text : Text) : Prop := (∃ c, isParenthesis c = true ∧ text = [c]) ∨ text.IsWord

theorem isPlain_nil : IsPlain [] := by simp [IsPlain]

/-- A run of characters of a class is separated from a text that does not go on with it. -/
theorem takeWhile_dropWhile_append {inClass : Char → Bool} {run rest : Text}
    (hrun : ∀ c ∈ run, inClass c = true) (hrest : ∀ c ∈ rest.head?, inClass c = false) :
    (run ++ rest).takeWhile inClass = run ∧ (run ++ rest).dropWhile inClass = rest := by
  rw [List.takeWhile_append_of_pos hrun, List.dropWhile_append_of_pos hrun]
  cases rest with
  | nil => simp
  | cons c rest => simp [hrest c rfl]

theorem isPlain_append {text text' : Text} :
    IsPlain (text ++ text') ↔ text.IsPlain ∧ text'.IsPlain :=
  List.forall_mem_append

theorem isPlain_cons {c : Char} {text : Text} :
    IsPlain (c :: text) ↔ (isParenthesis c = false ∧ isBlank c = false) ∧ text.IsPlain :=
  List.forall_mem_cons

theorem words_append_blank {c : Char} (hblank : isBlank c = true) (text text' : Text) :
    words (text ++ c :: text') = text.words ++ text'.words := by
  rw [words, List.splitOnP_append_cons text text' hblank, List.filter_append]
  rfl

theorem words_of_isBlank_eq_false {text : Text} (hplain : ∀ c ∈ text, isBlank c = false) :
    text.words = if text.isEmpty then [] else [text] := by
  rw [words, List.splitOnP_eq_singleton hplain]
  cases text <;> rfl

/-- The two replacements together put a space on either side of every parenthesis: the second
finds no closing parenthesis among the characters that the first has put in. -/
theorem setApart_eq_flatMap (source : Text) :
    source.setApart = source.flatMap fun c => if isParenthesis c then [' ', c, ' '] else [c] := by
  rw [setApart, padded, padded, List.flatMap_assoc]
  congr 1
  funext c
  by_cases hopening : c = '('
  · subst hopening
    rfl
  · simp [isParenthesis, hopening]

theorem setApart_append (text text' : Text) :
    setApart (text ++ text') = text.setApart ++ text'.setApart := by
  simp only [setApart_eq_flatMap, List.flatMap_append]

theorem setApart_cons_parenthesis {c : Char} (hparen : isParenthesis c = true) (text : Text) :
    setApart (c :: text) = ' ' :: ([c] ++ ' ' :: text.setApart) := by
  simp [setApart_eq_flatMap, hparen]

theorem setApart_cons_of_isParenthesis_eq_false {c : Char} (hc : isParenthesis c = false)
    (text : Text) : setApart (c :: text) = c :: text.setApart := by
  simp [setApart_eq_flatMap, hc]

theorem setApart_of_isPlain {text : Text} (hplain : text.IsPlain) : text.setApart = text := by
  induction text with
  | nil => rfl
  | cons c text ih =>
      obtain ⟨hc, hrest⟩ := isPlain_cons.1 hplain
      rw [setApart_cons_of_isParenthesis_eq_false hc.1, ih hrest]

@[simp] theorem tokens_nil : tokens [] = [] := by
  simp [tokens, setApart_eq_flatMap, words]

/-- A blank parts the tokens before it from the tokens after it. -/
theorem tokens_append_blank {c : Char} (hblank : isBlank c = true) (text text' : Text) :
    tokens (text ++ c :: text') = text.tokens ++ text'.tokens := by
  rw [tokens, setApart_append,
    setApart_cons_of_isParenthesis_eq_false (isParenthesis_of_isBlank hblank),
    words_append_blank hblank]
  rfl

theorem tokens_blanks_append {blanks : Text} (hblanks : ∀ c ∈ blanks, isBlank c = true)
    (text : Text) : tokens (blanks ++ text) = text.tokens := by
  induction blanks with
  | nil => rfl
  | cons c blanks ih =>
      obtain ⟨hc, hrest⟩ := List.forall_mem_cons.1 hblanks
      have hcut := tokens_append_blank hc [] (blanks ++ text)
      rw [tokens_nil, List.nil_append, List.nil_append] at hcut
      rw [List.cons_append, hcut, ih hrest]

/-- One blank or more part the tokens before them from the tokens after them. -/
theorem tokens_append_blanks {blanks : Text} (hne : blanks ≠ [])
    (hblanks : ∀ c ∈ blanks, isBlank c = true) (text text' : Text) :
    tokens (text ++ blanks ++ text') = text.tokens ++ text'.tokens := by
  obtain ⟨c, rest, rfl⟩ := List.exists_cons_of_ne_nil hne
  obtain ⟨hc, hrest⟩ := List.forall_mem_cons.1 hblanks
  rw [List.append_assoc, List.cons_append, tokens_append_blank hc,
    tokens_blanks_append hrest]

/-- A parenthesis is a token between the tokens before it and the tokens after it. -/
theorem tokens_append_parenthesis {c : Char} (hparen : isParenthesis c = true)
    (text text' : Text) : tokens (text ++ c :: text') = text.tokens ++ [c] :: text'.tokens := by
  have hword : words [c] = [[c]] := by
    rw [words_of_isBlank_eq_false (by simp [isBlank_of_isParenthesis hparen])]
    rfl
  rw [tokens, setApart_append, setApart_cons_parenthesis hparen,
    words_append_blank isBlank_space, words_append_blank isBlank_space, hword]
  rfl

theorem tokens_of_isPlain {text : Text} (hplain : text.IsPlain) :
    text.tokens = if text.isEmpty then [] else [text] := by
  rw [tokens, setApart_of_isPlain hplain,
    words_of_isBlank_eq_false fun c hc => (hplain c hc).2]

/-- A word is its own only token. -/
theorem tokens_of_isWord {text : Text} (hword : text.IsWord) : text.tokens = [text] := by
  rw [tokens_of_isPlain hword.2]
  simp [hword.1]

theorem tokens_cons_parenthesis {c : Char} (hparen : isParenthesis c = true) (text : Text) :
    tokens (c :: text) = [c] :: text.tokens := by
  simpa using tokens_append_parenthesis hparen [] text

theorem isWord_of_mem_tokens_of_isPlain {text token : Text} (hplain : text.IsPlain)
    (htoken : token ∈ text.tokens) : token.IsWord := by
  rw [tokens_of_isPlain hplain] at htoken
  split at htoken
  · simp at htoken
  · next hne =>
    rw [List.mem_singleton.1 htoken]
    exact ⟨by simpa using hne, hplain⟩

theorem isToken_of_mem_tokens_append {run text token : Text} (hrun : run.IsPlain)
    (htoken : token ∈ tokens (run ++ text)) : token.IsToken := by
  -- The run of plain characters grows until a parenthesis, a blank or the end cuts it off.
  induction text generalizing run with
  | nil =>
      rw [List.append_nil] at htoken
      exact .inr (isWord_of_mem_tokens_of_isPlain hrun htoken)
  | cons c text ih =>
      have hcut : token ∈ tokens run ∨ token ∈ tokens text → token.IsToken := by
        rintro (hmem | hmem)
        · exact .inr (isWord_of_mem_tokens_of_isPlain hrun hmem)
        · exact @ih [] isPlain_nil hmem
      cases hparen : isParenthesis c with
      | true =>
          rw [tokens_append_parenthesis hparen] at htoken
          rcases List.mem_append.1 htoken with hmem | hmem
          · exact hcut (.inl hmem)
          · rcases List.mem_cons.1 hmem with rfl | hmem
            · exact .inl ⟨c, hparen, rfl⟩
            · exact hcut (.inr hmem)
      | false =>
          cases hblank : isBlank c with
          | true =>
              rw [tokens_append_blank hblank] at htoken
              exact hcut (List.mem_append.1 htoken)
          | false =>
              rw [← List.singleton_append, ← List.append_assoc] at htoken
              exact ih (isPlain_append.2 ⟨hrun, by simp [IsPlain, hparen, hblank]⟩) htoken

/-- Every token is a parenthesis or a word. -/
theorem isToken_of_mem_tokens {text token : Text} (htoken : token ∈ text.tokens) :
    token.IsToken :=
  isToken_of_mem_tokens_append isPlain_nil htoken

end Text

end Sexp
