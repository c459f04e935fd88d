import Sexp.Text.Quoted

/-!
# Quoted text read back

The first character of a text can be read off its quoted form, whichever of its spellings was
taken and whatever follows, and no spelling begins with the mark that encloses the text.  So
a quoted text says by itself where it ends and what it is the quotation of.
-/

namespace Sexp

-- The powers here are those of natural numbers.
attribute [local instance (2000)] instPowNat

/-! ## Hexadecimal digits -/

def hexDigit? (c : Char) : Option Nat :=
  if '0' ≤ c ∧ c ≤ '9' then some (c.toNat - 48)
  else if 'a' ≤ c ∧ c ≤ 'f' then some (c.toNat - 87)
  else if 'A' ≤ c ∧ c ≤ 'F' then some (c.toNat - 55)
  else none

/-- The number that hexadecimal digits denote. -/
def hexNumber? (digits : Text) : Option Nat :=
  digits.foldlM (fun n c => (hexDigit? c).map (16 * n + ·)) 0

theorem hexDigit?_digitChar : ∀ d < 16, hexDigit? (Nat.digitChar d) = some d := by
  decide

theorem hexNumber?_hexDigits (width n : Nat) :
    hexNumber? (hexDigits width n) = some (n % 16 ^ width) := by
  induction width generalizing n with
  | zero =>
      rw [Nat.pow_zero, Nat.mod_one]
      rfl
  | succ width ih =>
      have hdigit := hexDigit?_digitChar (n % 16) (Nat.mod_lt n (by decide))
      have hprefix := ih (n / 16)
      rw [hexNumber?] at hprefix
      rw [hexNumber?, hexDigits, List.foldlM_append, hprefix, Nat.pow_succ,
        Nat.mul_comm (16 ^ width), Nat.mod_mul]
      simp [hdigit, Nat.add_comm]

/-! ## Quotation -/

/-- The character with a code point of so many hexadecimal digits, and what follows these. -/
def codeChar? (width : Nat) (text : Text) : Option (Char × Text) :=
  (hexNumber? (text.take width)).map fun code => (Char.ofNat code, text.drop width)

/-- The character that is spelled after a backslash, and what follows its spelling. -/
def escapedChar? : Text → Option (Char × Text)
  | [] => none
  | 't' :: rest => some ('\t', rest)
  | 'n' :: rest => some ('\n', rest)
  | 'r' :: rest => some ('\r', rest)
  | 'x' :: rest => codeChar? 2 rest
  | 'u' :: rest => codeChar? 4 rest
  | 'U' :: rest => codeChar? 8 rest
  | c :: rest => some (c, rest)

/-- The character that is spelled first, and what follows its spelling. -/
def spelledChar? : Text → Option (Char × Text)
  | [] => none
  | '\\' :: rest => escapedChar? rest
  | c :: rest => some (c, rest)

theorem codeChar?_hexDigits {width : Nat} {c : Char} (hc : c.toNat < 16 ^ width) (rest : Text) :
    codeChar? width (hexDigits width c.toNat ++ rest) = some (c, rest) := by
  have hlength := length_hexDigits width c.toNat
  rw [codeChar?, List.take_left' hlength, List.drop_left' hlength, hexNumber?_hexDigits,
    Nat.mod_eq_of_lt hc, Option.map_some, Char.ofNat_toNat]

theorem spelledChar?_numericEscape (c : Char) (rest : Text) :
    spelledChar? (numericEscape c ++ rest) = some (c, rest) := by
  have hvalid : c.toNat < 0xD800 ∨ 0xDFFF < c.toNat ∧ c.toNat < 0x110000 := c.valid
  unfold numericEscape
  split
  · exact codeChar?_hexDigits (by omega) rest
  · split
    · exact codeChar?_hexDigits (by omega) rest
    · exact codeChar?_hexDigits (by omega) rest

/-- Every spelling of a character is read as that character. -/
theorem spelledChar?_quotedChar (mark : QuotationMark) (c : Char) (rest : Text) :
    spelledChar? (quotedChar mark c ++ rest) = some (c, rest) := by
  unfold quotedChar
  split
  · next hmark =>
    rcases hmark with rfl | rfl
    · cases mark <;> rfl
    · rfl
  · next hmark =>
    split
    · next hc => rw [hc]; rfl
    split
    · next hc => rw [hc]; rfl
    split
    · next hc => rw [hc]; rfl
    split
    · have hbackslash : c ≠ '\\' := fun hc => hmark (.inr hc)
      simp [spelledChar?]
    · exact spelledChar?_numericEscape c rest

/-- No spelling of a character begins with the mark that encloses the text. -/
theorem head?_quotedChar_ne (mark : QuotationMark) (c : Char) (rest : Text) :
    (quotedChar mark c ++ rest).head? ≠ some mark.char := by
  have hbackslash : '\\' ≠ mark.char := by cases mark <;> decide
  unfold quotedChar
  split
  · simpa using hbackslash
  · next hmark =>
    split
    · simpa using hbackslash
    split
    · simpa using hbackslash
    split
    · simpa using hbackslash
    split
    · simpa using fun hc => hmark (.inl hc)
    · unfold numericEscape
      split
      · simpa using hbackslash
      · split <;> simpa using hbackslash

/-- Up to the mark that closes it, a text can be read off the spellings of its characters. -/
theorem flatMap_quotedChar_append_inj {mark : QuotationMark} {text text' rest rest' : Text}
    (h : text.flatMap (quotedChar mark) ++ mark.char :: rest =
      text'.flatMap (quotedChar mark) ++ mark.char :: rest') : text = text' ∧ rest = rest' := by
  induction text generalizing text' with
  | nil =>
      cases text' with
      | nil => exact ⟨rfl, (List.cons.inj h).2⟩
      | cons c' text' =>
          rw [List.flatMap_cons, List.append_assoc] at h
          exact absurd (congrArg List.head? h).symm (head?_quotedChar_ne mark c' _)
  | cons c text ih =>
      rw [List.flatMap_cons, List.append_assoc] at h
      cases text' with
      | nil => exact absurd (congrArg List.head? h) (head?_quotedChar_ne mark c _)
      | cons c' text' =>
          rw [List.flatMap_cons, List.append_assoc] at h
          have hspelled := congrArg spelledChar? h
          rw [spelledChar?_quotedChar, spelledChar?_quotedChar] at hspelled
          obtain ⟨rfl, hrest⟩ := Prod.mk.inj (Option.some.inj hspelled)
          obtain ⟨rfl, hend⟩ := ih hrest
          exact ⟨rfl, hend⟩

theorem QuotationMark.char_inj {mark mark' : QuotationMark} (h : mark.char = mark'.char) :
    mark = mark' := by
  cases mark with
  | apostrophe =>
      cases mark' with
      | apostrophe => rfl
      | doubleQuote => exact absurd h (by decide)
  | doubleQuote =>
      cases mark' with
      | apostrophe => exact absurd h (by decide)
      | doubleQuote => rfl

/-- A quoted text says what it is the quotation of, and where it ends. -/
theorem Text.quoted_append_inj {text text' rest rest' : Text}
    (h : text.quoted ++ rest = text'.quoted ++ rest') : text = text' ∧ rest = rest' := by
  simp only [quoted, List.append_assoc, List.cons_append] at h
  obtain ⟨hmark, hbody⟩ := List.cons.inj h
  rw [QuotationMark.char_inj hmark] at hbody
  exact flatMap_quotedChar_append_inj hbody

theorem Text.quoted_inj {text text' : Text} (h : text.quoted = text'.quoted) : text = text' := by
  have happend : text.quoted ++ [] = text'.quoted ++ [] := by rw [h]
  exact (quoted_append_inj happend).1

end Sexp
