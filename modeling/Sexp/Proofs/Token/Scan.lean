import Sexp.Proofs.Token.Words

/-!
# Tokens in one pass

A scanner goes over a text once and keeps the run of characters since the last cut.  A
parenthesis cuts the run off and is a token of its own, a blank cuts it off and is dropped,
and any other character makes it longer.  Setting the parentheses apart and splitting at
blanks gives the tokens of the scanner, and so nothing but the blanks is lost.
-/

namespace Sexp

/-- The code points of the blanks. -/
def IsBlankCode (code : Nat) : Prop :=
  0x09 ≤ code ∧ code ≤ 0x0D ∨ 0x1C ≤ code ∧ code ≤ 0x20 ∨ code = 0x85 ∨ code = 0xA0 ∨
    code = 0x1680 ∨ 0x2000 ≤ code ∧ code ≤ 0x200A ∨ code = 0x2028 ∨ code = 0x2029 ∨
    code = 0x202F ∨ code = 0x205F ∨ code = 0x3000

instance (code : Nat) : Decidable (IsBlankCode code) := inferInstanceAs (Decidable (_ ∨ _))

theorem isBlank_iff (c : Char) : isBlank c = true ↔ IsBlankCode c.toNat := by
  simp only [isBlank, inRanges, blankRanges, List.any_cons, List.any_nil, Bool.or_eq_true,
    CodeRange.contains_iff, Bool.false_eq_true, or_false, IsBlankCode]
  omega

namespace Text

/-- A run of characters as a token; an empty run is none. -/
def cutOff (run : Text) : List Text := if run.isEmpty then [] else [run]

/-- Scans a text after a run of characters that has not been cut off yet. -/
def scanFrom (run : Text) : Text → List Text
  | [] => run.cutOff
  | c :: rest =>
      if c = '(' ∨ c = ')' then run.cutOff ++ [c] :: scanFrom [] rest
      else if IsBlankCode c.toNat then run.cutOff ++ scanFrom [] rest
      else scanFrom (run ++ [c]) rest

/-- The tokens of a text, found in one pass. -/
def scan (source : Text) : List Text := scanFrom [] source

theorem flatten_cutOff (run : Text) : run.cutOff.flatten = run := by
  cases run <;> simp [cutOff]

theorem cutOff_of_ne_nil {run : Text} (hne : run ≠ []) : run.cutOff = [run] :=
  if_neg (by simpa using hne)

/-- A scanner finds the tokens of the run and the text together. -/
theorem scanFrom_eq_tokens {run : Text} (hrun : run.IsPlain) (text : Text) :
    scanFrom run text = tokens (run ++ text) := by
  -- The cases are the end of the text, a parenthesis, a blank, and any other character.
  fun_induction scanFrom run text with
  | case1 run =>
      rw [List.append_nil, tokens_of_isPlain hrun]
      rfl
  | case2 run c rest hparen ih =>
      rw [tokens_append_parenthesis ((isParenthesis_iff c).2 hparen), tokens_of_isPlain hrun,
        ih isPlain_nil]
      rfl
  | case3 run c rest hparen hblank ih =>
      rw [tokens_append_blank ((isBlank_iff c).2 hblank), tokens_of_isPlain hrun,
        ih isPlain_nil]
      rfl
  | case4 run c rest hparen hblank ih =>
      -- The character passes from the text to the run, which stays without a cut.
      rw [← isParenthesis_iff, Bool.not_eq_true] at hparen
      rw [← isBlank_iff, Bool.not_eq_true] at hblank
      have hlonger := isPlain_append.2 ⟨hrun, isPlain_cons.2 ⟨⟨hparen, hblank⟩, isPlain_nil⟩⟩
      rw [ih hlonger, List.append_assoc, List.singleton_append]

/-- A scanner loses nothing but blanks. -/
theorem flatten_scanFrom (run text : Text) :
    (scanFrom run text).flatten = run ++ text.filter (¬IsBlankCode ·.toNat) := by
  fun_induction scanFrom run text with
  | case1 run => simp [flatten_cutOff]
  | case2 run c rest hparen ih =>
      have hkept : ¬IsBlankCode c.toNat := by
        rcases hparen with rfl | rfl <;> decide
      simp [flatten_cutOff, ih, hkept]
  | case3 run c rest hparen hblank ih => simp [flatten_cutOff, ih, hblank]
  | case4 run c rest hparen hblank ih => simp [ih, hblank]

/-- The first token that is scanned begins with the run before it. -/
theorem exists_scanFrom_eq_cons {run : Text} (hne : run ≠ []) (text : Text) :
    ∃ token rest, scanFrom run text = token :: rest ∧ run <+: token := by
  fun_induction scanFrom run text with
  | case1 run => exact ⟨run, [], cutOff_of_ne_nil hne, List.prefix_rfl⟩
  | case2 run c rest hparen ih =>
      rw [cutOff_of_ne_nil hne]
      exact ⟨run, _, rfl, List.prefix_rfl⟩
  | case3 run c rest hparen hblank ih =>
      rw [cutOff_of_ne_nil hne]
      exact ⟨run, _, rfl, List.prefix_rfl⟩
  | case4 run c rest hparen hblank ih =>
      obtain ⟨token, others, hscan, hprefix⟩ := ih (by simp)
      exact ⟨token, others, hscan, (List.prefix_append run [c]).trans hprefix⟩

/-- The tokens of a text are those that a scanner finds in one pass.  Joined, they are the
text without its blanks; none of them is empty, and a parenthesis stands in none but the
token that it is. -/
theorem tokens_eq_scan (source : Text) :
    source.tokens = source.scan ∧
      source.tokens.flatten = source.filter (¬IsBlankCode ·.toNat) ∧
      ∀ token ∈ source.tokens,
        token ≠ [] ∧ ∀ c ∈ token, c = '(' ∨ c = ')' → token = [c] := by
  have hscan : source.tokens = source.scan := (scanFrom_eq_tokens isPlain_nil source).symm
  refine ⟨hscan, ?_, fun token htoken => ?_⟩
  · rw [hscan]
    exact flatten_scanFrom [] source
  · rcases isToken_of_mem_tokens htoken with ⟨d, -, rfl⟩ | ⟨hne, hplain⟩
    · exact ⟨List.cons_ne_nil _ _, fun c hc _ => by rw [List.mem_singleton.1 hc]⟩
    · refine ⟨hne, fun c hc hparen => ?_⟩
      rw [← isParenthesis_iff, (hplain c hc).1] at hparen
      contradiction

example : scan "a(b\u3000c))".toList = [['a'], ['('], ['b'], ['c'], [')'], [')']] := by decide

end Text

end Sexp
