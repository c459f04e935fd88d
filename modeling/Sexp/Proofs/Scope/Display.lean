import Sexp.Proofs.Node.Display
import Sexp.Proofs.Scope.Dictionary

/-!
# Descriptions of contexts

The description of a context shows its own names, quoted and in ascending order, and its depth.
A quotation ends by itself, so the names can be taken out of the brackets again, whatever
characters they have, and the digits that follow give the depth.  The names in ascending order
say which names they are and nothing of the order in which they were bound.  So two contexts,
of one session or of two, have the same description exactly when they have bound the same
names and are equally deep.
-/

namespace Sexp

/-- No quotation begins with a closing bracket. -/
theorem exists_quoted_eq_cons (text : Text) : ∃ c tail, text.quoted = c :: tail ∧ c ≠ ']' := by
  refine ⟨(QuotationMark.choose text).char, _, rfl, ?_⟩
  cases QuotationMark.choose text <;> decide

/-- Quoted texts in brackets can be taken apart, whatever follows. -/
theorem bracketed_map_quoted_append_inj {names names' : List Text} {rest rest' : Text}
    (h : bracketed (names.map Text.quoted) ++ rest = bracketed (names'.map Text.quoted) ++ rest') :
    names = names' ∧ rest = rest' := by
  have hself : ∀ text ∈ names.map Text.quoted, ∀ text' ∈ names'.map Text.quoted,
      ∀ rest rest' : Text, text ++ rest = text' ++ rest' → text = text' ∧ rest = rest' := by
    intro text htext text' htext' rest rest' happend
    obtain ⟨name, -, rfl⟩ := List.mem_map.1 htext
    obtain ⟨name', -, rfl⟩ := List.mem_map.1 htext'
    obtain ⟨rfl, hrest⟩ := Text.quoted_append_inj happend
    exact ⟨rfl, hrest⟩
  have hopen : ∀ text ∈ names.map Text.quoted ++ names'.map Text.quoted,
      ∃ c tail, text = c :: tail ∧ c ≠ ']' := by
    intro text htext
    rw [← List.map_append] at htext
    obtain ⟨name, -, rfl⟩ := List.mem_map.1 htext
    exact exists_quoted_eq_cons name
  obtain ⟨hnames, hrest⟩ := bracketed_append_inj hself hopen h
  exact ⟨(List.map_inj_right fun _ _ => Text.quoted_inj).1 hnames, hrest⟩

theorem toDigits_inj {m n : Nat} (h : Nat.toDigits 10 m = Nat.toDigits 10 n) : m = n := by
  calc
    m = Nat.ofDigitChars 10 (Nat.toDigits 10 m) 0 := Nat.ofDigitChars_ten_toDigits.symm
    _ = Nat.ofDigitChars 10 (Nat.toDigits 10 n) 0 := by rw [h]
    _ = n := Nat.ofDigitChars_ten_toDigits

/-- The description of a context that shows some names and has some depth. -/
def contextText (names : List Text) (depth : Nat) : Text :=
  "Context(".toList ++ bracketed (names.map Text.quoted) ++ ", depth=".toList ++
    Nat.toDigits 10 depth ++ [')']

/-- The description of a context says which names it shows and how deep it is. -/
theorem contextText_inj {names names' : List Text} {depth depth' : Nat}
    (h : contextText names depth = contextText names' depth') :
    names = names' ∧ depth = depth' := by
  unfold contextText at h
  simp only [List.append_assoc, List.append_cancel_left_eq] at h
  obtain ⟨hnames, hrest⟩ := bracketed_map_quoted_append_inj h
  rw [List.append_cancel_left_eq, List.append_cancel_right_eq] at hrest
  exact ⟨hnames, toDigits_inj hrest⟩

namespace Store

theorem describe_eq (store : Store) (context : Nat) :
    store.describe context =
      contextText (store.bindings context).names (store.depth context) := rfl

/-- Contexts have the same description when they show the same names and are equally deep. -/
theorem describe_eq_iff (store store' : Store) (context context' : Nat) :
    store.describe context = store'.describe context' ↔
      (store.bindings context).names = (store'.bindings context').names ∧
        store.depth context = store'.depth context' := by
  constructor
  · exact contextText_inj
  · rintro ⟨hnames, hdepth⟩
    rw [describe_eq, describe_eq, hnames, hdepth]

theorem run_scope_describe {store : Store} {context : Nat} (hcontext : context < store.size) :
    (store.run [.scope context, .describe context]).2 =
      [.ok (.bindings (store.bindings context).entries),
        .ok (.text (store.describe context))] := by
  have hscope : store.perform (.scope context) = _ := perform_of_ask hcontext rfl
  have hdescribe : store.perform (.describe context) = _ := perform_of_ask hcontext rfl
  simp only [run, hscope, hdescribe]

theorem run_describe_depth {store : Store} {context : Nat} (hcontext : context < store.size) :
    (store.run [.describe context, .depth context]).2 =
      [.ok (.text (store.describe context)), .ok (.number (store.depth context))] := by
  have hdescribe : store.perform (.describe context) = _ := perform_of_ask hcontext rfl
  have hdepth : store.perform (.depth context) = _ := perform_of_ask hcontext rfl
  simp only [run, hdescribe, hdepth]

end Store

/-- The answers that show a context which has the names of a dictionary: its bindings and its
description, both in the order of the names. -/
def Dictionary.shown (d : Dictionary) (depth : Nat) : List (Except Refusal Answer) :=
  [.ok (.bindings d.sorted.entries), .ok (.text (contextText (ascending d.names) depth))]

/-- The order in which names were first bound is not shown. -/
theorem Dictionary.shown_of_perm {d d' : Dictionary} (hperm : d.entries.Perm d'.entries)
    (depth : Nat) : d.shown depth = d'.shown depth := by
  rw [shown, shown, ← names_sorted, ← names_sorted, (sorted_eq_iff d d').2 hperm]

/-- A context shows the dictionary that the history of the session has for it. -/
theorem session_shown (steps : List Step) {context : Nat}
    (hcontext : context < (Store.after steps).size) :
    session (steps ++ [.scope context, .describe context]) = session steps ++
      ((history steps).dictionary context).shown ((Store.after steps).depth context) := by
  rw [session_append, Store.run_scope_describe hcontext, Store.describe_eq,
    Store.names_bindings_after, Store.bindings_after]
  rfl

/-- A context is described by the names that have been bound in it, in ascending order, and its
depth.  At the end of any two sessions, or of one, contexts have the same description exactly
when the same names have been bound in them, in whatever order, and they are equally deep. -/
theorem session_describe_eq_iff (steps steps' : List Step) {context context' : Nat}
    (hcontext : context < (Store.after steps).size)
    (hcontext' : context' < (Store.after steps').size) :
    let names := ((history steps).dictionary context).names
    let depth := (Store.after steps).depth context
    let names' := ((history steps').dictionary context').names
    let depth' := (Store.after steps').depth context'
    session (steps ++ [.describe context, .depth context]) = session steps ++
        [.ok (.text (contextText (ascending names) depth)), .ok (.number depth)] ∧
      session (steps' ++ [.describe context', .depth context']) = session steps' ++
        [.ok (.text (contextText (ascending names') depth')), .ok (.number depth')] ∧
      (contextText (ascending names) depth = contextText (ascending names') depth' ↔
        (∀ name, name ∈ names ↔ name ∈ names') ∧ depth = depth') := by
  intro names depth names' depth'
  refine ⟨?_, ?_, ?_⟩
  · rw [session_append, Store.run_describe_depth hcontext, Store.describe_eq,
      Store.names_bindings_after]
  · rw [session_append, Store.run_describe_depth hcontext', Store.describe_eq,
      Store.names_bindings_after]
  · rw [← Store.names_bindings_after, ← Store.names_bindings_after, ← Store.describe_eq,
      ← Store.describe_eq, Store.describe_eq_iff, Bindings.names_eq_iff]
    simp only [Store.mem_names_bindings_after, names, names', depth, depth']

/-- Two names that are bound in the opposite order, one of them twice, make no difference; one
name that looks like the two between quotation marks does. -/
theorem session_describe_eq_iff_order :
    let x : Node := .atom (.identifier ['x'])
    let steps : List Step := [.new [] .none, .child 0 [(['a'], x), (['b'], x)]]
    let steps' : List Step := [.new [] .none, .child 0 [(['b'], x)], .defineToken 1 ['a'] ['y'],
      .defineToken 1 ['b'] ['z']]
    let merged : List Step := [.new [] .none, .child 0 [("a\x27, \x27b".toList, x)]]
    let questions : List Step := [.describe 1, .depth 1]
    1 < (Store.after steps).size ∧ 1 < (Store.after steps').size ∧
      1 < (Store.after merged).size ∧ ∃ text text',
        session (steps ++ questions) = session steps ++ [.ok (.text text), .ok (.number 1)] ∧
        session (steps' ++ questions) = session steps' ++ [.ok (.text text), .ok (.number 1)] ∧
        session (merged ++ questions) = session merged ++ [.ok (.text text'), .ok (.number 1)] ∧
        text ≠ text' := by
  intro x steps steps' merged questions
  have hsize : 1 < (Store.after steps).size := by decide
  have hsize' : 1 < (Store.after steps').size := by decide
  have hmerged : 1 < (Store.after merged).size := by decide
  have hnames : ((history steps).dictionary 1).names = [['a'], ['b']] := by rfl
  have hnames' : ((history steps').dictionary 1).names = [['b'], ['a']] := by rfl
  have hnames'' : ((history merged).dictionary 1).names = ["a\x27, \x27b".toList] := by rfl
  obtain ⟨hfirst, hsecond, hsame⟩ := session_describe_eq_iff steps steps' hsize hsize'
  obtain ⟨-, hthird, hdiffer⟩ := session_describe_eq_iff steps merged hsize hmerged
  rw [hnames, hnames'] at hsame
  rw [hnames, hnames''] at hdiffer
  have htexts := hsame.2 ⟨by simp [or_comm], rfl⟩
  rw [hnames] at hfirst
  rw [hnames', ← htexts] at hsecond
  rw [hnames''] at hthird
  refine ⟨hsize, hsize', hmerged, _, _, hfirst, hsecond, hthird, fun htext => ?_⟩
  exact absurd ((hdiffer.1 htext).1 ['a']) (by decide)

end Sexp
