import Sexp.Proofs.Reader.Outcome
import Sexp.Proofs.Token.Words

/-!
# Reading one program after another

Trees that have been read stay at the front of the outermost list and have no part in what
is read after them.  So once the first text has been read to its end with no list open, the
reader goes on with the second as if it began there, whatever the outcome.  The blanks
between the texts see to it that no token reaches from the one into the other.
-/

namespace Sexp

namespace OpenLists

/-- Puts trees before those of the last list of some. -/
def prependLast (earlier : List Node) : List (List Node) → List (List Node)
  | [] => []
  | [outermost] => [outermost ++ earlier.reverse]
  | inner :: outer => inner :: prependLast earlier outer

/-- The state in which some trees have been read before those of the outermost list. -/
def prepend (earlier : List Node) : OpenLists → OpenLists
  | ⟨innermost, []⟩ => ⟨innermost ++ earlier.reverse, []⟩
  | ⟨innermost, outer⟩ => ⟨innermost, prependLast earlier outer⟩

variable (earlier : List Node)

/-- Earlier trees have no part in a step. -/
theorem step_prepend (state : OpenLists) (event : Event) :
    (state.prepend earlier).step event = (state.step event).map (prepend earlier) := by
  obtain ⟨innermost, outer⟩ := state
  cases outer with
  | nil => cases event <;> rfl
  | cons enclosing outer =>
      cases event with
      | closing => cases outer <;> rfl
      | opening => rfl
      | atom value => rfl
      | foreign typeName => rfl

theorem finish_prepend (state : OpenLists) :
    (state.prepend earlier).finish = state.finish.map (earlier ++ ·) := by
  obtain ⟨innermost, outer⟩ := state
  cases outer with
  | nil => simp [prepend, finish, Except.map]
  | cons enclosing outer => cases outer <;> rfl

/-- Earlier trees come before those that are read, and a failure is the same with them. -/
theorem read_prepend (mode : Mode) (state : OpenLists) (events : List Event) :
    (state.prepend earlier).read mode events =
      (state.read mode events).map (earlier ++ ·) := by
  induction events generalizing state with
  | nil => exact finish_prepend earlier state
  | cons event events ih =>
      exact read_cons_map (finish_prepend earlier state) (step_prepend earlier state event)
        fun next _ => ih next

end OpenLists

/-- After the events of some trees the reader goes on as if it began there. -/
theorem readEvents_append (mode : Mode) {taken : List Event} {forest : List Node}
    (hread : readEvents .strict taken = .ok forest) (rest : List Event) :
    readEvents mode (taken ++ rest) = (readEvents mode rest).map (forest ++ ·) := by
  obtain rfl := (readEvents_strict_eq_ok_iff taken forest).1 hread
  have hadvance : OpenLists.empty.advance (Node.eventsAll forest) =
      some (OpenLists.empty.prepend forest) := by
    rw [OpenLists.advance_eventsAll]
    simp [OpenLists.empty, OpenLists.prepend]
  rw [readEvents, OpenLists.read_append mode hadvance]
  exact OpenLists.read_prepend forest mode .empty rest

/-- A first text that is well formed to its end, some blanks, and any second text are read
as the trees of the first, followed by those of the second; and where reading the second
fails, reading the whole fails with the same error. -/
theorem readSource_append (mode : Mode) {first blanks : Text} {forest : List Node}
    (hread : readSource .strict first = .ok forest) (hne : blanks ≠ [])
    (hblanks : ∀ c ∈ blanks, isBlank c = true) (second : Text) :
    readSource mode (first ++ blanks ++ second) =
      (readSource mode second).map (forest ++ ·) := by
  rw [readSource, readTokens, Text.tokens_append_blanks hne hblanks, List.map_append]
  exact readEvents_append mode hread _

/-- The closing that is stray in the second text is stray in the whole, and the first text
does not suffer from it in the lenient mode. -/
theorem readSource_append_stray :
    let first : Text := "(f a)".toList
    let second : Text := "b) (".toList
    let call : Node := .list [.atom (.identifier ['f']), .atom (.identifier ['a'])]
    readSource .strict first = .ok [call] ∧ (∀ c ∈ ['\n', '\t'], isBlank c = true) ∧
      readSource .strict (first ++ ['\n', '\t'] ++ second) = .error .unexpectedClose ∧
      readSource .lenient (first ++ ['\n', '\t'] ++ second) =
        .ok [call, .atom (.identifier ['b'])] := by
  intro first second call
  have hfirst : first.tokens.map Event.ofToken =
      [.opening, .atom (.identifier ['f']), .atom (.identifier ['a']), .closing] := by
    decide +kernel
  have hsecond : second.tokens.map Event.ofToken =
      [.atom (.identifier ['b']), .closing, .opening] := by
    decide +kernel
  have hread : readSource .strict first = .ok [call] := by
    rw [readSource, readTokens, hfirst]
    rfl
  have hblanks : ∀ c ∈ ['\n', '\t'], isBlank c = true := List.all_eq_true.1 rfl
  have happend := fun mode => readSource_append mode hread (by simp) hblanks second
  refine ⟨hread, hblanks, ?_, ?_⟩
  · rw [happend, readSource, readTokens, hsecond]
    rfl
  · rw [happend, readSource, readTokens, hsecond]
    rfl

end Sexp
