import Sexp.Node.Display
import Sexp.Proofs.Node.Canonical
import Sexp.Proofs.Node.Renderings
import Sexp.Proofs.Text.Quoted

/-!
# Descriptions tell trees apart

The name of an identifier stands as it is in a description.  The reader makes no name with a
parenthesis, so the first closing parenthesis ends it; a quotation ends by itself, and a
number ends where its characters do.  So no description of a tree begins the description of
another one, the texts in brackets can be taken apart, and trees of readable atoms have the
same description only if they are the same up to the sign of zero.
-/

namespace Sexp

/-- What follows a text in brackets: the other texts, each after a comma and a space, and the
closing bracket. -/
def bracketEnd : List Text → Text
  | [] => [']']
  | text :: rest => ',' :: ' ' :: (text ++ bracketEnd rest)

theorem bracketed_cons (text : Text) (texts : List Text) :
    bracketed (text :: texts) = '[' :: (text ++ bracketEnd texts) := by
  induction texts generalizing text with
  | nil => simp [bracketed, bracketEnd]
  | cons text' texts ih =>
      have hrest := ih text'
      rw [bracketed, List.cons_append, List.cons.injEq] at hrest
      rw [bracketed, List.intercalate_cons_cons, List.cons_append, List.append_assoc,
        List.append_assoc, hrest.2, bracketEnd]
      rfl

/-- Texts of which none begins another are separated by what stands between them. -/
theorem bracketEnd_append_inj {texts texts' : List Text} {rest rest' : Text}
    (hself : ∀ text ∈ texts, ∀ text' ∈ texts', ∀ rest rest' : Text,
      text ++ rest = text' ++ rest' → text = text' ∧ rest = rest')
    (h : bracketEnd texts ++ rest = bracketEnd texts' ++ rest') :
    texts = texts' ∧ rest = rest' := by
  induction texts generalizing texts' with
  | nil =>
      cases texts' with
      | nil => exact ⟨rfl, (List.cons.inj h).2⟩
      | cons text' texts' => simp [bracketEnd] at h
  | cons text texts ih =>
      cases texts' with
      | nil => simp [bracketEnd] at h
      | cons text' texts' =>
          simp only [bracketEnd, List.cons_append, List.append_assoc, List.cons.injEq,
            true_and] at h
          obtain ⟨rfl, hrest⟩ := hself text List.mem_cons_self text' List.mem_cons_self _ _ h
          obtain ⟨rfl, hend⟩ := ih (fun other hother other' hother' => hself other
            (List.mem_cons_of_mem _ hother) other' (List.mem_cons_of_mem _ hother')) hrest
          exact ⟨rfl, hend⟩

theorem bracketed_append_inj {texts texts' : List Text} {rest rest' : Text}
    (hself : ∀ text ∈ texts, ∀ text' ∈ texts', ∀ rest rest' : Text,
      text ++ rest = text' ++ rest' → text = text' ∧ rest = rest')
    (hopen : ∀ text ∈ texts ++ texts', ∃ c tail, text = c :: tail ∧ c ≠ ']')
    (h : bracketed texts ++ rest = bracketed texts' ++ rest') :
    texts = texts' ∧ rest = rest' := by
  cases texts with
  | nil =>
      cases texts' with
      | nil => exact ⟨rfl, (List.cons.inj (List.cons.inj h).2).2⟩
      | cons text' texts' =>
          obtain ⟨c, tail, rfl, hc⟩ := hopen text' List.mem_cons_self
          rw [bracketed_cons] at h
          exact absurd (List.cons.inj (List.cons.inj h).2).1.symm hc
  | cons text texts =>
      rw [bracketed_cons] at h
      cases texts' with
      | nil =>
          obtain ⟨c, tail, rfl, hc⟩ := hopen text List.mem_cons_self
          exact absurd (List.cons.inj (List.cons.inj h).2).1 hc
      | cons text' texts' =>
          rw [bracketed_cons, List.cons_append, List.cons_append, List.append_assoc,
            List.append_assoc, List.cons.injEq] at h
          obtain ⟨rfl, hrest⟩ := hself text List.mem_cons_self text' List.mem_cons_self _ _ h.2
          obtain ⟨rfl, hend⟩ := bracketEnd_append_inj (fun other hother other' hother' =>
            hself other (List.mem_cons_of_mem _ hother) other' (List.mem_cons_of_mem _ hother'))
            hrest
          exact ⟨rfl, hend⟩

/-- The first closing parenthesis ends a text that has none. -/
theorem append_closing_inj {text text' rest rest' : Text} (htext : ')' ∉ text)
    (htext' : ')' ∉ text') (h : text ++ ')' :: rest = text' ++ ')' :: rest') :
    text = text' ∧ rest = rest' := by
  induction text generalizing text' with
  | nil =>
      cases text' with
      | nil => exact ⟨rfl, (List.cons.inj h).2⟩
      | cons c' text' =>
          obtain rfl := (List.cons.inj h).1
          exact absurd List.mem_cons_self htext'
  | cons c text ih =>
      cases text' with
      | nil =>
          obtain rfl := (List.cons.inj h).1
          exact absurd List.mem_cons_self htext
      | cons c' text' =>
          obtain ⟨rfl, hrest⟩ := List.cons.inj h
          obtain ⟨rfl, hend⟩ := ih (fun hmem => htext (List.mem_cons_of_mem _ hmem))
            (fun hmem => htext' (List.mem_cons_of_mem _ hmem)) hrest
          exact ⟨rfl, hend⟩

namespace Binary64

/-- Finite numbers with the same text are the same up to the sign of zero. -/
theorem dropZeroSign_eq_of_write {x y : Binary64} (hx : x.isFinite = true)
    (hy : y.isFinite = true) (h : displayNumbers.write x = displayNumbers.write y) :
    x.dropZeroSign = y.dropZeroSign := by
  rw [write_displayNumbers hx, write_displayNumbers hy] at h
  have hword : JsonValue.ofWord? .plain (jsonNumbers.write x) = some (.number x.dropZeroSign) :=
    JsonValue.ofWord?_write (.inr hx)
  rw [h, JsonValue.ofWord?_write (.inr hy)] at hword
  exact (JsonValue.number.inj (Option.some.inj hword)).symm

theorem isNumeric_write_displayNumbers {x : Binary64} (hfinite : x.isFinite = true) :
    (displayNumbers.write x).IsNumeric :=
  displayNumbers.isNumeric_write Decimal.isNumeric_compact hfinite

end Binary64

theorem Text.IsNumeric.closing_notMem {text : Text} (hnumeric : text.IsNumeric) :
    ')' ∉ text := by
  intro hmem
  exact absurd (hnumeric ')' hmem) (by decide)

theorem Text.IsPlain.closing_notMem {text : Text} (hplain : text.IsPlain) : ')' ∉ text := by
  intro hmem
  exact absurd (hplain ')' hmem).1 (by decide)

/-- A quotation does not begin like a number in parentheses ends. -/
theorem quoted_append_ne {text number rest rest' : Text} (hnumeric : number.IsNumeric) :
    text.quoted ++ rest ≠ number ++ ')' :: rest' := by
  intro h
  have hmark : isNumberChar (QuotationMark.choose text).char = false ∧
      (QuotationMark.choose text).char ≠ ')' := by
    cases QuotationMark.choose text <;> decide
  cases number with
  | nil => exact hmark.2 (List.cons.inj h).1
  | cons c number =>
      have hc := hnumeric c List.mem_cons_self
      rw [← (List.cons.inj h).1, hmark.1] at hc
      contradiction

namespace Atom

theorem describe_identifier (name : Text) :
    (identifier name).describe = "Identifier(".toList ++ name ++ [')'] := rfl

theorem describe_string (text : Text) :
    (string text).describe = "Literal(".toList ++ text.quoted ++ [')'] := rfl

theorem describe_number (x : Binary64) :
    (number x).describe = "Literal(".toList ++ displayNumbers.write x ++ [')'] := rfl

/-- The first character tells an identifier from a literal. -/
theorem head?_describe (a : Atom) :
    a.describe.head? = some (if a.isIdentifier then 'I' else 'L') := by
  cases a with
  | identifier name => simp [describe_identifier, isIdentifier]
  | string text => simp [describe_string, isIdentifier]
  | number x => simp [describe_number, isIdentifier]

theorem exists_describe_eq_cons (a : Atom) :
    ∃ c tail, a.describe = c :: tail ∧ c = if a.isIdentifier then 'I' else 'L' := by
  obtain ⟨tail, htail⟩ := List.head?_eq_some_iff.1 a.head?_describe
  exact ⟨_, tail, htail, rfl⟩

theorem isIdentifier_eq_of_describe_append {a b : Atom} {rest rest' : Text}
    (h : a.describe ++ rest = b.describe ++ rest') : a.isIdentifier = b.isIdentifier := by
  obtain ⟨c, tail, ha, hc⟩ := a.exists_describe_eq_cons
  obtain ⟨c', tail', hb, hc'⟩ := b.exists_describe_eq_cons
  rw [ha, hb] at h
  rw [(List.cons.inj h).1, hc'] at hc
  revert hc
  cases a.isIdentifier <;> cases b.isIdentifier <;> decide

/-- The description of a readable atom decides the atom up to the sign of zero, and ends by
itself. -/
theorem describe_append_inj {a b : Atom} {rest rest' : Text} (ha : a.IsReadable)
    (hb : b.IsReadable) (h : a.describe ++ rest = b.describe ++ rest') :
    a.dropZeroSign = b.dropZeroSign ∧ rest = rest' := by
  cases a with
  | identifier name =>
      cases b with
      | identifier name' =>
          -- A name that can be read has no parenthesis, so the first closing one is not its own.
          simp only [describe_identifier, List.append_assoc, List.append_cancel_left_eq] at h
          obtain ⟨rfl, hrest⟩ :=
            append_closing_inj ha.1.2.closing_notMem hb.1.2.closing_notMem h
          exact ⟨rfl, hrest⟩
      | string text' => exact nomatch isIdentifier_eq_of_describe_append h
      | number y => exact nomatch isIdentifier_eq_of_describe_append h
  | string text =>
      cases b with
      | identifier name' => exact nomatch isIdentifier_eq_of_describe_append h
      | string text' =>
          simp only [describe_string, List.append_assoc, List.append_cancel_left_eq] at h
          obtain ⟨rfl, hrest⟩ := Text.quoted_append_inj h
          exact ⟨rfl, (List.cons.inj hrest).2⟩
      | number y =>
          simp only [describe_string, describe_number, List.append_assoc,
            List.append_cancel_left_eq] at h
          exact absurd h (quoted_append_ne (Binary64.isNumeric_write_displayNumbers hb))
  | number x =>
      have hx := Binary64.isNumeric_write_displayNumbers ha
      cases b with
      | identifier name' => exact nomatch isIdentifier_eq_of_describe_append h
      | string text' =>
          simp only [describe_string, describe_number, List.append_assoc,
            List.append_cancel_left_eq] at h
          exact absurd h.symm (quoted_append_ne hx)
      | number y =>
          simp only [describe_number, List.append_assoc, List.append_cancel_left_eq] at h
          obtain ⟨htext, hrest⟩ := append_closing_inj hx.closing_notMem
            (Binary64.isNumeric_write_displayNumbers hb).closing_notMem h
          exact ⟨congrArg number (Binary64.dropZeroSign_eq_of_write ha hb htext), hrest⟩

theorem describe_dropZeroSign (a : Atom) : a.dropZeroSign.describe = a.describe := by
  cases a with
  | identifier name => rfl
  | string text => rfl
  | number x =>
      rw [dropZeroSign, describe_number, displayNumbers.write_dropZeroSign, ← describe_number]

end Atom

/-- The descriptions of trees of readable atoms. -/
inductive IsDescription : Text → Prop
  | atom (a : Atom) (hreadable : a.IsReadable) : IsDescription a.describe
  | list (texts : List Text) (htexts : ∀ text ∈ texts, IsDescription text) :
      IsDescription (bracketed texts)

namespace IsDescription

theorem exists_eq_cons {text : Text} (h : IsDescription text) :
    ∃ c tail, text = c :: tail ∧ c ≠ ']' := by
  cases h with
  | atom a _ =>
      obtain ⟨c, tail, ha, hc⟩ := a.exists_describe_eq_cons
      exact ⟨c, tail, ha, by rw [hc]; split <;> decide⟩
  | list texts _ => exact ⟨'[', _, rfl, by decide⟩

theorem forall_mem_append_exists_eq_cons {texts texts' : List Text}
    (htexts : ∀ text ∈ texts, IsDescription text)
    (htexts' : ∀ text ∈ texts', IsDescription text) :
    ∀ text ∈ texts ++ texts', ∃ c tail, text = c :: tail ∧ c ≠ ']' :=
  List.forall_mem_append.2 ⟨fun text htext => (htexts text htext).exists_eq_cons,
    fun text htext => (htexts' text htext).exists_eq_cons⟩

/-- An atom and a list have descriptions that begin with different characters. -/
theorem describe_append_ne_bracketed (a : Atom) (texts : List Text) (rest rest' : Text) :
    a.describe ++ rest ≠ bracketed texts ++ rest' := by
  intro h
  obtain ⟨c, tail, ha, hc⟩ := a.exists_describe_eq_cons
  rw [ha] at h
  rw [(List.cons.inj h).1] at hc
  revert hc
  split <;> decide

/-- No description begins another one. -/
theorem append_inj {text text' rest rest' : Text} (h : IsDescription text)
    (h' : IsDescription text') (happend : text ++ rest = text' ++ rest') :
    text = text' ∧ rest = rest' := by
  induction h generalizing text' rest rest' with
  | atom a ha =>
      cases h' with
      | atom b hb =>
          obtain ⟨hdrop, hrest⟩ := Atom.describe_append_inj ha hb happend
          rw [← a.describe_dropZeroSign, hdrop, b.describe_dropZeroSign]
          exact ⟨rfl, hrest⟩
      | list texts' _ => exact absurd happend (describe_append_ne_bracketed a texts' rest rest')
  | list texts htexts ih =>
      cases h' with
      | atom b _ => exact absurd happend.symm (describe_append_ne_bracketed b texts rest' rest)
      | list texts' htexts' =>
          -- By induction no element begins another one, which is what takes the lists apart.
          obtain ⟨rfl, hrest⟩ := bracketed_append_inj (fun text htext text' htext' _ _ =>
            ih text htext (htexts' text' htext'))
            (forall_mem_append_exists_eq_cons htexts htexts') happend
          exact ⟨rfl, hrest⟩

/-- Lists of descriptions with the same text in brackets are the same list. -/
theorem bracketed_inj {texts texts' : List Text} (htexts : ∀ text ∈ texts, IsDescription text)
    (htexts' : ∀ text ∈ texts', IsDescription text) (h : bracketed texts = bracketed texts') :
    texts = texts' := by
  have happend : bracketed texts ++ [] = bracketed texts' ++ [] := by rw [h]
  exact (bracketed_append_inj (fun text htext text' htext' _ _ =>
    (htexts text htext).append_inj (htexts' text' htext'))
    (forall_mem_append_exists_eq_cons htexts htexts') happend).1

end IsDescription

namespace Node

theorem describeAll?_cons_eq_some_iff {node : Node} {rest : List Node} {texts : List Text} :
    describeAll? (node :: rest) = some texts ↔ ∃ text texts', texts = text :: texts' ∧
      node.describe? = some text ∧ describeAll? rest = some texts' := by
  simp only [describeAll?, Option.bind_eq_bind, Option.bind_eq_some_iff]
  constructor
  · rintro ⟨text, htext, texts', htexts', hsome⟩
    exact ⟨text, texts', (Option.some.inj hsome).symm, htext, htexts'⟩
  · rintro ⟨text, texts', rfl, htext, htexts'⟩
    exact ⟨text, htext, texts', htexts', rfl⟩

theorem describe?_list_eq_some_iff {items : List Node} {text : Text} :
    (list items).describe? = some text ↔
      ∃ texts, describeAll? items = some texts ∧ bracketed texts = text := by
  rw [describe?, Option.map_eq_some_iff]

mutual

/-- A tree of nodes has a description. -/
theorem exists_describe? : ∀ {node : Node}, node.IsPure → ∃ text, node.describe? = some text
  | atom a, _ => ⟨a.describe, rfl⟩
  | list items, hpure => by
      obtain ⟨texts, htexts⟩ := exists_describeAll? ((isPure_list_iff items).1 hpure)
      exact ⟨bracketed texts, describe?_list_eq_some_iff.2 ⟨texts, htexts, rfl⟩⟩
  | foreign typeName, hpure => absurd hpure (not_isPure_foreign typeName)

theorem exists_describeAll? : ∀ {nodes : List Node}, (∀ node ∈ nodes, node.IsPure) →
    ∃ texts, describeAll? nodes = some texts
  | [], _ => ⟨[], rfl⟩
  | node :: rest, hpure => by
      rw [List.forall_mem_cons] at hpure
      obtain ⟨text, htext⟩ := exists_describe? hpure.1
      obtain ⟨texts, htexts⟩ := exists_describeAll? hpure.2
      exact ⟨text :: texts, describeAll?_cons_eq_some_iff.2 ⟨text, texts, rfl, htext, htexts⟩⟩

end

mutual

theorem isDescription_of_describe? : ∀ {node : Node} {text : Text},
    (∀ a ∈ node, a.IsReadable) → node.describe? = some text → IsDescription text
  | atom a, _, hreadable, hsome => by
      obtain rfl := Option.some.inj hsome
      exact .atom a (hreadable a ((mem_atom_iff a a).2 rfl))
  | list items, _, hreadable, hsome => by
      obtain ⟨texts, htexts, rfl⟩ := describe?_list_eq_some_iff.1 hsome
      exact .list texts
        (isDescription_of_describeAll? (forall_mem_list_iff.1 hreadable) htexts)

theorem isDescription_of_describeAll? : ∀ {nodes : List Node} {texts : List Text},
    (∀ node ∈ nodes, ∀ a ∈ node, a.IsReadable) → describeAll? nodes = some texts →
      ∀ text ∈ texts, IsDescription text
  | [], _, _, hsome => by
      obtain rfl := Option.some.inj hsome
      exact List.forall_mem_nil _
  | node :: rest, _, hreadable, hsome => by
      obtain ⟨text, texts, rfl, htext, htexts⟩ := describeAll?_cons_eq_some_iff.1 hsome
      rw [List.forall_mem_cons] at hreadable ⊢
      exact ⟨isDescription_of_describe? hreadable.1 htext,
        isDescription_of_describeAll? hreadable.2 htexts⟩

end

mutual

/-- The sign of a zero is not described. -/
theorem describe?_dropZeroSign : ∀ node : Node, node.dropZeroSign.describe? = node.describe?
  | atom a => by rw [dropZeroSign, describe?, describe?, Atom.describe_dropZeroSign]
  | list items => by rw [dropZeroSign, describe?, describe?, describeAll?_dropZeroSignAll items]
  | foreign _ => rfl

theorem describeAll?_dropZeroSignAll : ∀ nodes : List Node,
    describeAll? (dropZeroSignAll nodes) = describeAll? nodes
  | [] => rfl
  | node :: rest => by
      rw [dropZeroSignAll, describeAll?, describeAll?, describe?_dropZeroSign node,
        describeAll?_dropZeroSignAll rest]

end

mutual

/-- Trees of readable atoms with the same description are the same up to the sign of zero. -/
theorem dropZeroSign_eq_of_describe? : ∀ {node node' : Node} {text : Text},
    (∀ a ∈ node, a.IsReadable) → (∀ a ∈ node', a.IsReadable) → node.describe? = some text →
      node'.describe? = some text → node.dropZeroSign = node'.dropZeroSign
  | atom a, atom b, _, hreadable, hreadable', hsome, hsome' => by
      have htexts : a.describe ++ [] = b.describe ++ [] := by
        rw [Option.some.inj hsome, Option.some.inj hsome']
      exact congrArg atom (Atom.describe_append_inj (hreadable a ((mem_atom_iff a a).2 rfl))
        (hreadable' b ((mem_atom_iff b b).2 rfl)) htexts).1
  | atom a, list items', _, _, _, hsome, hsome' => by
      obtain ⟨texts', -, htext⟩ := describe?_list_eq_some_iff.1 hsome'
      rw [← Option.some.inj hsome] at htext
      exact absurd (by rw [htext]) (IsDescription.describe_append_ne_bracketed a texts' [] [])
  | list items, atom b, _, _, _, hsome, hsome' => by
      obtain ⟨texts, -, htext⟩ := describe?_list_eq_some_iff.1 hsome
      rw [← Option.some.inj hsome'] at htext
      exact absurd (by rw [htext]) (IsDescription.describe_append_ne_bracketed b texts [] [])
  | list items, list items', _, hreadable, hreadable', hsome, hsome' => by
      obtain ⟨texts, htexts, rfl⟩ := describe?_list_eq_some_iff.1 hsome
      obtain ⟨texts', htexts', hbracketed⟩ := describe?_list_eq_some_iff.1 hsome'
      rw [forall_mem_list_iff] at hreadable hreadable'
      obtain rfl := IsDescription.bracketed_inj
        (isDescription_of_describeAll? hreadable' htexts')
        (isDescription_of_describeAll? hreadable htexts) hbracketed
      exact congrArg list
        (dropZeroSignAll_eq_of_describeAll? hreadable hreadable' htexts htexts')

theorem dropZeroSignAll_eq_of_describeAll? : ∀ {nodes nodes' : List Node} {texts : List Text},
    (∀ node ∈ nodes, ∀ a ∈ node, a.IsReadable) →
      (∀ node ∈ nodes', ∀ a ∈ node, a.IsReadable) → describeAll? nodes = some texts →
        describeAll? nodes' = some texts → dropZeroSignAll nodes = dropZeroSignAll nodes'
  | [], [], _, _, _, _, _ => rfl
  | [], node' :: rest', _, _, _, hsome, hsome' => by
      obtain ⟨text, texts, rfl, -⟩ := describeAll?_cons_eq_some_iff.1 hsome'
      exact nomatch hsome
  | node :: rest, [], _, _, _, hsome, hsome' => by
      obtain ⟨text, texts, rfl, -⟩ := describeAll?_cons_eq_some_iff.1 hsome
      exact nomatch hsome'
  | node :: rest, node' :: rest', _, hreadable, hreadable', hsome, hsome' => by
      obtain ⟨text, texts, rfl, htext, htexts⟩ := describeAll?_cons_eq_some_iff.1 hsome
      obtain ⟨text', texts', heq, htext', htexts'⟩ := describeAll?_cons_eq_some_iff.1 hsome'
      obtain ⟨rfl, rfl⟩ := List.cons.inj heq
      rw [List.forall_mem_cons] at hreadable hreadable'
      rw [dropZeroSignAll, dropZeroSignAll,
        dropZeroSign_eq_of_describe? hreadable.1 hreadable'.1 htext htext',
        dropZeroSignAll_eq_of_describeAll? hreadable.2 hreadable'.2 htexts htexts']

end

/-- What two source texts are read as has a description each, and the two descriptions are
the same exactly when the trees are equal. -/
theorem describe?_eq_iff_equal {mode mode' : Mode} {source source' : Text}
    {nodes nodes' : List Node} (hread : readSource mode source = .ok nodes)
    (hread' : readSource mode' source' = .ok nodes') :
    ∃ text text', (list nodes).describe? = some text ∧ (list nodes').describe? = some text' ∧
      (text = text' ↔ (list nodes).equal (list nodes') = true) := by
  obtain ⟨hpure, hreadable⟩ := readable_of_readSource hread
  obtain ⟨hpure', hreadable'⟩ := readable_of_readSource hread'
  obtain ⟨text, htext⟩ := exists_describe? ((isPure_list_iff nodes).2 hpure)
  obtain ⟨text', htext'⟩ := exists_describe? ((isPure_list_iff nodes').2 hpure')
  refine ⟨text, text', htext, htext', ?_⟩
  rw [equal, equalAll_iff_of_readable hreadable]
  constructor
  · rintro rfl
    exact list.inj (dropZeroSign_eq_of_describe? (forall_mem_list_iff.2 hreadable)
      (forall_mem_list_iff.2 hreadable') htext htext')
  · intro hdrop
    have hsame : (list nodes).describe? = (list nodes').describe? := by
      rw [describe?, describe?, ← describeAll?_dropZeroSignAll nodes, hdrop,
        describeAll?_dropZeroSignAll]
    rw [htext, htext'] at hsame
    exact Option.some.inj hsame

/-- A name that looks like a quotation and a string with the same text are one text in JSON,
and are told apart by their descriptions. -/
theorem describe?_eq_iff_equal_quotation :
    let name : Text := "\x27x\x27".toList
    let nodes : List Node := [.list [.atom (.identifier "a],".toList), .atom (.identifier name)]]
    let nodes' : List Node := [.list [.atom (.identifier "a],".toList), .atom (.string name)]]
    readSource .strict "(a], \x27x\x27)".toList = .ok nodes ∧
      readSource .lenient "(a], \x22\x27x\x27\x22) )".toList = .ok nodes' ∧
      (list nodes).jsonText = (list nodes').jsonText ∧
      ∃ text text', (list nodes).describe? = some text ∧
        (list nodes').describe? = some text' ∧ text ≠ text' := by
  intro name nodes nodes'
  have hevents : (Text.tokens "(a], \x27x\x27)".toList).map Event.ofToken =
      [.opening, .atom (.identifier "a],".toList), .atom (.identifier name), .closing] := by
    decide +kernel
  have hevents' : (Text.tokens "(a], \x22\x27x\x27\x22) )".toList).map Event.ofToken =
      [.opening, .atom (.identifier "a],".toList), .atom (.string name), .closing, .closing] := by
    decide +kernel
  have hread : readSource .strict "(a], \x27x\x27)".toList = .ok nodes := by
    rw [readSource, readTokens, hevents]
    rfl
  have hread' : readSource .lenient "(a], \x22\x27x\x27\x22) )".toList = .ok nodes' := by
    rw [readSource, readTokens, hevents']
    rfl
  obtain ⟨text, text', htext, htext', hiff⟩ := describe?_eq_iff_equal hread hread'
  have hdiffer : (list nodes).equal (list nodes') ≠ true := by decide
  exact ⟨hread, hread', rfl, text, text', htext, htext', fun hsame => hdiffer (hiff.1 hsame)⟩

end Node

end Sexp
