import Sexp.Proofs.Reader.Outcome

/-!
# Recursive descent

Trees can be read without keeping the unfinished lists: at an opening parenthesis the
reader calls itself for the list that begins there, and goes on with the tokens that this
call has left.  A closing parenthesis ends the call that meets it.  The two ways of reading
have the same outcome, because the lists around the innermost one are the calls that have
not returned yet: once a nested call has its list, the reader with open lists stands where
the call has left off, with the list put into the one around it.
-/

namespace Sexp

/-- Where a call of the descent stands: among the trees, or in a list that was opened. -/
inductive Level
  | outermost
  | nested

namespace Level

variable {α : Type}

/-- The end of the tokens may end the trees, but no list that was opened. -/
def atEnd : Level → α → Except ReadError α
  | outermost, found => .ok found
  | nested, _ => .error .unterminated

/-- A closing parenthesis ends a list that was opened; among the trees it is stray, which is
an error in the strict mode and the end of the reading in the lenient mode. -/
def atClosing : Level → Mode → α → Except ReadError α
  | nested, _, found => .ok found
  | outermost, .strict, _ => .error .unexpectedClose
  | outermost, .lenient, found => .ok found

end Level

/-- The elements that a call has read, and the tokens that it has left. -/
structure Descent (tokens : List Text) where
  items : List Node
  rest : List Text
  length_rest_le : rest.length ≤ tokens.length

/-- What a call has left is also left to a call that began earlier. -/
def Descent.widen {tokens : List Text} (found : Descent tokens) {earlier : List Text}
    (hle : tokens.length ≤ earlier.length) : Descent earlier :=
  ⟨found.items, found.rest, Nat.le_trans found.length_rest_le hle⟩

/-- Reads on after the first elements of a list, up to the end of that list. -/
def descend (mode : Mode) (level : Level) (items : List Node) :
    (tokens : List Text) → Except ReadError (Descent tokens)
  | [] => level.atEnd ⟨items, [], Nat.le_refl _⟩
  | token :: rest =>
      if token = ['('] then do
        let inner ← descend mode .nested [] rest
        let found ← descend mode level (items ++ [.list inner.items]) inner.rest
        return found.widen (Nat.le_succ_of_le inner.length_rest_le)
      else if token = [')'] then
        level.atClosing mode ⟨items, rest, Nat.le_succ _⟩
      else do
        let found ← descend mode level (items ++ [.atom (Atom.ofToken token)]) rest
        return found.widen (Nat.le_succ _)
termination_by tokens => tokens.length
decreasing_by
  · exact Nat.lt_succ_self _
  · exact Nat.lt_succ_of_le inner.length_rest_le
  · exact Nat.lt_succ_self _

/-- The trees that recursive descent reads from tokens.  What follows on a stray closing is
dropped. -/
def descendTokens (mode : Mode) (tokens : List Text) : Except ReadError (List Node) := do
  let found ← descend mode .outermost [] tokens
  return found.items

namespace OpenLists

/-- The level of a list with the given lists around it. -/
def levelIn : List (List Node) → Level
  | [] => .outermost
  | _ :: _ => .nested

/-- Goes on with reading after the end of a list with the given lists around it. -/
def resume (mode : Mode) {tokens : List Text} :
    List (List Node) → Descent tokens → Except ReadError (List Node)
  | [], found => .ok found.items
  | enclosing :: outer, found =>
      read mode ⟨.list found.items :: enclosing, outer⟩ (found.rest.map Event.ofToken)

variable (mode : Mode) (outer : List (List Node)) {tokens : List Text} (found : Descent tokens)

theorem resume_widen {earlier : List Text} (hle : tokens.length ≤ earlier.length) :
    resume mode outer (found.widen hle) = resume mode outer found := by
  cases outer <;> rfl

theorem finish_eq_atEnd :
    finish ⟨found.items.reverse, outer⟩ =
      (levelIn outer).atEnd found >>= resume mode outer := by
  cases outer with
  | nil => exact congrArg Except.ok (List.reverse_reverse found.items)
  | cons enclosing outer => rfl

theorem read_closing_eq_atClosing :
    read mode ⟨found.items.reverse, outer⟩ (.closing :: found.rest.map Event.ofToken) =
      (levelIn outer).atClosing mode found >>= resume mode outer := by
  cases outer with
  | nil =>
      cases mode with
      | strict => exact read_strict_of_stray rfl _
      | lenient =>
          rw [read_lenient_of_stray rfl]
          exact congrArg Except.ok (List.reverse_reverse found.items)
  | cons enclosing outer =>
      show read mode ⟨.list found.items.reverse.reverse :: enclosing, outer⟩ _ = _
      rw [List.reverse_reverse]
      rfl

/-- Reading from any state is the descent into the innermost list, and then going on with
the list around it. -/
theorem read_eq_descend (mode : Mode) (items : List Node) (outer : List (List Node)) :
    ∀ tokens : List Text, read mode ⟨items.reverse, outer⟩ (tokens.map Event.ofToken) =
      descend mode (levelIn outer) items tokens >>= resume mode outer
  | [] => by
      rw [descend]
      exact finish_eq_atEnd mode outer ⟨items, [], Nat.le_refl _⟩
  | token :: rest => by
      by_cases hopen : token = ['(']
      · subst hopen
        -- The nested call reads the new list, and this call goes on with what it has left.
        have hinner := read_eq_descend mode [] (items.reverse :: outer) rest
        have hfound : ∀ inner : Descent rest,
            read mode ⟨.list inner.items :: items.reverse, outer⟩
                (inner.rest.map Event.ofToken) =
              descend mode (levelIn outer) (items ++ [.list inner.items]) inner.rest >>=
                resume mode outer := by
          intro inner
          rw [← read_eq_descend, List.reverse_append]
          rfl
        calc
          read mode ⟨items.reverse, outer⟩ ((['('] :: rest).map Event.ofToken) =
              read mode ⟨[], items.reverse :: outer⟩ (rest.map Event.ofToken) := rfl
          _ = descend mode .nested [] rest >>= fun inner =>
              read mode ⟨.list inner.items :: items.reverse, outer⟩
                (inner.rest.map Event.ofToken) := hinner
          _ = descend mode (levelIn outer) items (['('] :: rest) >>= resume mode outer := by
            rw [descend, if_pos rfl]
            simp only [hfound, bind_assoc, pure_bind, resume_widen]
      · by_cases hclose : token = [')']
        · subst hclose
          rw [descend, if_neg hopen, if_pos rfl]
          exact read_closing_eq_atClosing mode outer ⟨items, rest, Nat.le_succ _⟩
        · have hfound :=
            read_eq_descend mode (items ++ [.atom (Atom.ofToken token)]) outer rest
          rw [List.reverse_append] at hfound
          rw [descend, if_neg hopen, if_neg hclose, List.map_cons, Event.ofToken,
            if_neg hopen, if_neg hclose]
          simp only [bind_assoc, pure_bind, resume_widen]
          exact hfound
termination_by tokens => tokens.length
decreasing_by
  · exact Nat.lt_succ_self _
  · exact Nat.lt_succ_of_le inner.length_rest_le
  · exact Nat.lt_succ_self _

end OpenLists

/-- In either mode the reader with open lists has the outcome of recursive descent on all
tokens: the same trees or the same error. -/
theorem readTokens_eq_descendTokens (mode : Mode) (tokens : List Text) :
    readTokens mode tokens = descendTokens mode tokens :=
  OpenLists.read_eq_descend mode [] [] tokens

end Sexp
