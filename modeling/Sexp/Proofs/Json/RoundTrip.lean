import Sexp.Proofs.Json.Numbers
import Sexp.Proofs.Json.Strings

/-!
# JSON values written and decoded

The compact text of a value is decoded as this value, up to the sign of zero, whatever
follows it that could not go on with its last word.  So texts are equal exactly when the
values are, up to the sign of zero.
-/

namespace Sexp

namespace Json

mutual

/-- The value that the text of a value is decoded as: the sign of zero is dropped. -/
def decoded : Json → JsonValue
  | array items => .array (decodedAll items)
  | string text => .string text
  | number x => .number x.dropZeroSign

def decodedAll : List Json → List JsonValue
  | [] => []
  | item :: rest => decoded item :: decodedAll rest

end

mutual

/-- The numbers in a value, from left to right. -/
def numbers : Json → List Binary64
  | array items => numbersAll items
  | string _ => []
  | number x => [x]

def numbersAll : List Json → List Binary64
  | [] => []
  | item :: rest => numbers item ++ numbersAll rest

end

/-- The texts of the elements of an array with commas between them. -/
def itemsText (items : List Json) : Text := List.intercalate [','] (compactAll items)

theorem itemsText_singleton (item : Json) : itemsText [item] = item.compact := by
  rw [itemsText, compactAll, compactAll, List.intercalate_singleton]

theorem itemsText_cons_cons (item item' : Json) (rest : List Json) :
    itemsText (item :: item' :: rest) = item.compact ++ ',' :: itemsText (item' :: rest) := by
  simp [itemsText, compactAll, List.intercalate_cons_cons]

theorem compact_array (items : List Json) :
    (array items).compact = '[' :: itemsText items ++ [']'] := by
  rw [compact, itemsText]

/-- The text of a value begins with a character that neither is space nor closes an array. -/
theorem exists_compact_eq_cons (value : Json) :
    ∃ c text, value.compact = c :: text ∧ JsonValue.isSpace c = false ∧ c ≠ ']' := by
  cases value with
  | array items => exact ⟨'[', _, compact_array items, by decide, by decide⟩
  | string text => exact ⟨'\x22', _, by rw [compact]; rfl, by decide, by decide⟩
  | number x =>
      obtain ⟨hne, hword⟩ := JsonValue.isWord_write x
      obtain ⟨c, text, htext⟩ := List.exists_cons_of_ne_nil hne
      have hc : JsonValue.isWordChar c = true := hword c (htext ▸ List.mem_cons_self)
      refine ⟨c, text, by rw [compact, htext], ?_, ?_⟩
      · simp [JsonValue.isWordChar] at hc
        exact hc.1
      · rintro rfl
        exact absurd hc (by decide)

theorem exists_itemsText_eq_cons (item : Json) (items : List Json) :
    ∃ c text, itemsText (item :: items) = c :: text ∧ JsonValue.isSpace c = false ∧ c ≠ ']' := by
  obtain ⟨c, text, htext, hc⟩ := exists_compact_eq_cons item
  cases items with
  | nil => exact ⟨c, text, by rw [itemsText_singleton, htext], hc⟩
  | cons item' items =>
      refine ⟨c, text ++ ',' :: itemsText (item' :: items), ?_, hc⟩
      rw [itemsText_cons_cons, htext, List.cons_append]

end Json

namespace JsonValue

/-- A text that does not go on with a word. -/
def IsPastWord (text : Text) : Prop := ∀ c ∈ text.head?, isWordChar c = false

theorem skipSpace_cons {c : Char} (hc : isSpace c = false) (rest : Text) :
    skipSpace (c :: rest) = c :: rest := by
  simp [skipSpace, hc]

/-- A word is decoded up to its end. -/
theorem value?_word (style : JsonNotation) (count : Nat) {word rest : Text}
    (hword : IsWord word) (hrest : IsPastWord rest) :
    value? style (count + 1) (word ++ rest) = (ofWord? style word).map (·, rest) := by
  obtain ⟨htake, hdrop⟩ := Text.takeWhile_dropWhile_append hword.2 hrest
  obtain ⟨c, others, rfl⟩ := List.exists_cons_of_ne_nil hword.1
  have hc := hword.2 c List.mem_cons_self
  have hne : ∀ d : Char, isWordChar d = false → c ≠ d := by
    rintro d hd rfl
    rw [hc] at hd
    contradiction
  have hspace : isSpace c = false := by
    simp only [isWordChar, Bool.not_eq_true', Bool.or_eq_false_iff] at hc
    exact hc.1
  rw [List.cons_append] at htake hdrop ⊢
  simp [value?, skipSpace_cons hspace, hne '\x22' (by decide), hne '[' (by decide),
    hne '\x7b' (by decide), htake, hdrop]

theorem value?_stringText (style : JsonNotation) (count : Nat) (text rest : Text) :
    value? style (count + 1) (Json.stringText text ++ rest) = some (string text, rest) := by
  have hstring := string?_flatMap_escapedChar text rest
  simp [value?, Json.stringText, skipSpace_cons (c := '\x22') (by decide), hstring]

theorem value?_array_nil (style : JsonNotation) (count : Nat) (rest : Text) :
    value? style (count + 1) ('[' :: ']' :: rest) = some (array [], rest) := by
  simp [value?, skipSpace_cons (c := '[') (by decide), skipSpace_cons (c := ']') (by decide)]

theorem value?_array {style : JsonNotation} {count : Nat} {c : Char} {text rest : Text}
    {items : List JsonValue} (hspace : isSpace c = false) (hclose : c ≠ ']')
    (hitems : items? style count (c :: text) = some (items, rest)) :
    value? style (count + 1) ('[' :: c :: text) = some (array items, rest) := by
  simp [value?, skipSpace_cons (c := '[') (by decide), skipSpace_cons hspace, hclose, hitems]

theorem items?_last {style : JsonNotation} {count : Nat} {text rest : Text} {item : JsonValue}
    (hitem : value? style count text = some (item, ']' :: rest)) :
    items? style (count + 1) text = some ([item], rest) := by
  simp [items?, hitem, skipSpace_cons (c := ']') (by decide)]

theorem items?_cons {style : JsonNotation} {count : Nat} {text rest rest' : Text}
    {item : JsonValue} {items : List JsonValue}
    (hitem : value? style count text = some (item, ',' :: rest))
    (hitems : items? style count rest = some (items, rest')) :
    items? style (count + 1) text = some (item :: items, rest') := by
  simp [items?, hitem, hitems, skipSpace_cons (c := ',') (by decide)]

end JsonValue

namespace Json

open JsonValue

theorem isPastWord_nil : IsPastWord [] := by
  simp [IsPastWord]

theorem isPastWord_cons {c : Char} (hc : isWordChar c = false) (rest : Text) :
    IsPastWord (c :: rest) := by
  simpa [IsPastWord] using hc

mutual

/-- The text of a value is decoded as this value, up to the sign of zero, and no further. -/
theorem value?_compact {style : JsonNotation} : ∀ {json : Json},
    (∀ x ∈ json.numbers, style = .extended ∨ x.isFinite = true) →
    ∀ (count : Nat), json.compact.length < count → ∀ {rest : Text}, IsPastWord rest →
      value? style count (json.compact ++ rest) = some (json.decoded, rest)
  | _, _, 0, hcount, _, _ => absurd hcount (Nat.not_lt_zero _)
  | array [], _, count + 1, _, rest, _ => value?_array_nil style count rest
  | array (item :: items), hnumbers, count + 1, hcount, rest, _ => by
      obtain ⟨c, text, htext, hspace, hclose⟩ := exists_itemsText_eq_cons item items
      rw [compact_array, List.length_append, List.length_cons, List.length_singleton] at hcount
      have hitems := items?_itemsText hnumbers count (by omega) rest
      rw [htext, List.cons_append] at hitems
      rw [compact_array, List.append_assoc, List.cons_append, htext]
      exact value?_array hspace hclose hitems
  | string text, _, count + 1, _, rest, _ => value?_stringText style count text rest
  | number x, hnumbers, count + 1, _, rest, hrest => by
      have hx := hnumbers x (by simp [numbers])
      rw [compact, value?_word style count (isWord_write x) hrest, ofWord?_write hx,
        Option.map_some, decoded]

theorem items?_itemsText {style : JsonNotation} : ∀ {item : Json} {items : List Json},
    (∀ x ∈ numbersAll (item :: items), style = .extended ∨ x.isFinite = true) →
    ∀ (count : Nat), (itemsText (item :: items)).length + 1 < count → ∀ (rest : Text),
      items? style count (itemsText (item :: items) ++ ']' :: rest) =
        some (decodedAll (item :: items), rest)
  | _, _, _, 0, hcount, _ => absurd hcount (Nat.not_lt_zero _)
  | item, [], hnumbers, count + 1, hcount, rest => by
      rw [itemsText_singleton] at hcount ⊢
      rw [numbersAll, List.forall_mem_append] at hnumbers
      have hitem := value?_compact hnumbers.1 count (by omega)
        (isPastWord_cons (c := ']') (by decide) rest)
      exact items?_last hitem
  | item, item' :: items, hnumbers, count + 1, hcount, rest => by
      rw [itemsText_cons_cons, List.length_append, List.length_cons] at hcount
      rw [itemsText_cons_cons, List.append_assoc, List.cons_append]
      rw [numbersAll, List.forall_mem_append] at hnumbers
      have hitem := value?_compact hnumbers.1 count (by omega)
        (isPastWord_cons (c := ',') (by decide) (itemsText (item' :: items) ++ ']' :: rest))
      have hitems := items?_itemsText hnumbers.2 count (by omega) rest
      exact items?_cons hitem hitems

end

/-- A value is decoded from its text in a notation that has forms for its numbers. -/
theorem ofText?_compact {style : JsonNotation} {json : Json}
    (hnumbers : ∀ x ∈ json.numbers, style = .extended ∨ x.isFinite = true) :
    JsonValue.ofText? style json.compact = some json.decoded := by
  have hvalue := value?_compact hnumbers (json.compact.length + 1) (Nat.lt_succ_self _)
    isPastWord_nil
  rw [List.append_nil] at hvalue
  simp [ofText?, hvalue, skipSpace]

mutual

theorem compact_eq_of_decoded_eq : ∀ {json json' : Json},
    json.decoded = json'.decoded → json.compact = json'.compact
  | array items, array items', hdecoded => by
      rw [decoded, decoded, JsonValue.array.injEq] at hdecoded
      rw [compact, compact, compactAll_eq_of_decodedAll_eq hdecoded]
  | string text, string text', hdecoded => by
      rw [decoded, decoded, JsonValue.string.injEq] at hdecoded
      rw [hdecoded]
  | number x, number y, hdecoded => by
      rw [decoded, decoded, JsonValue.number.injEq] at hdecoded
      rw [compact, compact, ← NumberStyle.write_dropZeroSign, hdecoded,
        NumberStyle.write_dropZeroSign]
  | array _, string _, hdecoded => by simp [decoded] at hdecoded
  | array _, number _, hdecoded => by simp [decoded] at hdecoded
  | string _, array _, hdecoded => by simp [decoded] at hdecoded
  | string _, number _, hdecoded => by simp [decoded] at hdecoded
  | number _, array _, hdecoded => by simp [decoded] at hdecoded
  | number _, string _, hdecoded => by simp [decoded] at hdecoded

theorem compactAll_eq_of_decodedAll_eq : ∀ {items items' : List Json},
    decodedAll items = decodedAll items' → compactAll items = compactAll items'
  | [], [], _ => rfl
  | [], _ :: _, hdecoded => by simp [decodedAll] at hdecoded
  | _ :: _, [], hdecoded => by simp [decodedAll] at hdecoded
  | item :: items, item' :: items', hdecoded => by
      rw [decodedAll, decodedAll, List.cons.injEq] at hdecoded
      rw [compactAll, compactAll, compact_eq_of_decoded_eq hdecoded.1,
        compactAll_eq_of_decodedAll_eq hdecoded.2]

end

/-- Values have one text exactly when they are the same up to the sign of zero. -/
theorem compact_eq_iff (json json' : Json) :
    json.compact = json'.compact ↔ json.decoded = json'.decoded := by
  constructor
  · intro hcompact
    have hextended : ∀ value : Json, ofText? .extended value.compact = some value.decoded :=
      fun value => ofText?_compact fun _ _ => .inl rfl
    have htext := hextended json
    rw [hcompact, hextended json'] at htext
    exact (Option.some.inj htext).symm
  · exact compact_eq_of_decoded_eq

end Json

end Sexp
