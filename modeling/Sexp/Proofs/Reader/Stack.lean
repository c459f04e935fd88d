import Sexp.Proofs.Reader.Outcome

/-!
# The stack of open lists

The open lists can also be kept on one stack, outermost first and each with its elements
in order.  A loop over such a stack looks up its last list or takes it off, and finds the
trees in its first one.  None of this is defined for the empty stack, so a turn of the loop
may have no outcome.  The stacks that the loop comes to are those of the reader's states:
they are never empty, their layout is what has been taken in, and the turns that are defined
for them are the steps of the reader.
-/

namespace Sexp

/-- The open lists, outermost first, with the elements of each in order. -/
abbrev Stack := List (List Node)

namespace Stack

/-- Appends a node to the last list. -/
def append? (stack : Stack) (node : Node) : Option Stack :=
  stack.getLast?.map fun last => stack.dropLast ++ [last ++ [node]]

/-- Takes off the last list. -/
def pop? (stack : Stack) : Option (List Node × Stack) :=
  stack.getLast?.map fun last => (last, stack.dropLast)

/-- What a turn of the loop comes to. -/
inductive Turn
  | goOn (next : Stack)
  | stop
  | fail (error : ReadError)

/-- What a closing parenthesis comes to when only the outermost list is open. -/
def Turn.atStray : Mode → Turn
  | .strict => .fail .unexpectedClose
  | .lenient => .stop

/-- The turn of the loop for one token. -/
def turn? (mode : Mode) (stack : Stack) (token : Text) : Option Turn :=
  if token = ['('] then
    some (.goOn (stack ++ [[]]))
  else if token = [')'] then
    if stack.length = 1 then
      some (.atStray mode)
    else do
      let (finished, below) ← stack.pop?
      let next ← below.append? (.list finished)
      return .goOn next
  else do
    let next ← stack.append? (.atom (Atom.ofToken token))
    return .goOn next

/-- What follows on the loop. -/
def finish? (stack : Stack) : Option (Except ReadError (List Node)) :=
  if 1 < stack.length then some (.error .unterminated) else stack.head?.map .ok

/-- The loop, and what follows on it. -/
def read? (mode : Mode) (stack : Stack) : List Text → Option (Except ReadError (List Node))
  | [] => stack.finish?
  | token :: rest =>
      match stack.turn? mode token with
      | none => none
      | some (.goOn next) => read? mode next rest
      | some .stop => stack.finish?
      | some (.fail error) => some (.error error)

/-- The loop has a stack after the tokens that it has taken in without stopping. -/
inductive Reaches (mode : Mode) : List Text → Stack → Prop
  | start : Reaches mode [] [[]]
  | turn {taken : List Text} {stack next : Stack} {token : Text}
      (hreaches : Reaches mode taken stack)
      (hturn : stack.turn? mode token = some (.goOn next)) :
      Reaches mode (taken ++ [token]) next

/-- The lists laid out flat, with one opening between each and the next. -/
def events (stack : Stack) : List Event :=
  [Event.opening].intercalate (stack.map Node.eventsAll)

/-- The outermost list is still the outermost one later, where more may have been appended
to it. -/
def KeepsOutermost (stack later : Stack) : Prop :=
  ∃ trees added, stack.head? = some trees ∧ later.head? = some (trees ++ added)

theorem append?_concat (below : Stack) (last : List Node) (node : Node) :
    append? (below ++ [last]) node = some (below ++ [last ++ [node]]) := by
  simp [append?]

theorem pop?_concat (below : Stack) (last : List Node) :
    pop? (below ++ [last]) = some (last, below) := by
  simp [pop?]

theorem events_concat {stack : Stack} (hstack : stack ≠ []) (items : List Node) :
    events (stack ++ [items]) = stack.events ++ .opening :: Node.eventsAll items := by
  induction stack with
  | nil => contradiction
  | cons first rest ih =>
      cases rest with
      | nil => simp [events, List.intercalate]
      | cons second rest =>
          have hrest := ih (List.cons_ne_nil second rest)
          simp only [events, List.cons_append, List.map_cons, List.intercalate_cons_cons,
            List.append_assoc] at hrest ⊢
          rw [hrest]

theorem keepsOutermost_concat {stack : Stack} (hstack : stack ≠ []) (items : List Node) :
    KeepsOutermost stack (stack ++ [items]) := by
  obtain ⟨trees, rest, rfl⟩ := List.exists_cons_of_ne_nil hstack
  exact ⟨trees, [], rfl, by simp⟩

theorem concat_keepsOutermost_iff {stack later : Stack} (hstack : stack ≠ [])
    (items : List Node) :
    KeepsOutermost (stack ++ [items]) later ↔ KeepsOutermost stack later := by
  obtain ⟨trees, rest, rfl⟩ := List.exists_cons_of_ne_nil hstack
  exact Iff.rfl

theorem keepsOutermost_append (below : Stack) (last added : List Node) :
    KeepsOutermost (below ++ [last]) (below ++ [last ++ added]) := by
  cases below with
  | nil => exact ⟨last, added, rfl, rfl⟩
  | cons trees rest => exact ⟨trees, [], rfl, by simp⟩

end Stack

namespace OpenLists

/-- The open lists as a stack. -/
def stack (state : OpenLists) : Stack :=
  ((state.innermost :: state.outer).map List.reverse).reverse

theorem stack_nil (innermost : List Node) : stack ⟨innermost, []⟩ = [innermost.reverse] := rfl

theorem stack_cons (innermost enclosing : List Node) (outer : List (List Node)) :
    stack ⟨innermost, enclosing :: outer⟩ = stack ⟨enclosing, outer⟩ ++ [innermost.reverse] := by
  simp [stack]

theorem stack_eq_concat (state : OpenLists) :
    ∃ below, state.stack = below ++ [state.innermost.reverse] ∧
      ∀ node, (state.push node).stack = below ++ [state.innermost.reverse ++ [node]] :=
  ⟨(state.outer.map List.reverse).reverse, by simp [stack], by simp [stack, push]⟩

theorem length_stack (state : OpenLists) : state.stack.length = state.depth + 1 := by
  simp [stack, depth]

theorem stack_ne_nil (state : OpenLists) : state.stack ≠ [] := by
  simp [stack]

theorem events_stack (state : OpenLists) : state.stack.events = state.events := by
  obtain ⟨innermost, outer⟩ := state
  induction outer generalizing innermost with
  | nil => simp [stack_nil, Stack.events, events, outerEvents]
  | cons enclosing outer ih =>
      rw [stack_cons, Stack.events_concat (stack_ne_nil _), ih]
      simp [events, outerEvents]

theorem append?_stack (state : OpenLists) (node : Node) :
    state.stack.append? node = some (state.push node).stack := by
  obtain ⟨below, hstack, hpush⟩ := state.stack_eq_concat
  rw [hstack, hpush, Stack.append?_concat]

/-- The turn for a token is defined: it is the step for the event of the token. -/
theorem turn?_stack (mode : Mode) (state : OpenLists) (token : Text) :
    state.stack.turn? mode token = some
      ((state.step (Event.ofToken token)).elim (.atStray mode) fun next => .goOn next.stack) := by
  by_cases hopen : token = ['(']
  · subst hopen
    show some (Stack.Turn.goOn (state.stack ++ [[]])) = some (.goOn _)
    rw [stack_cons, List.reverse_nil]
  · by_cases hclose : token = [')']
    · subst hclose
      obtain ⟨innermost, outer⟩ := state
      cases outer with
      | nil => rfl
      | cons enclosing outer =>
          -- The list that is taken off is appended to the one below it.
          have hlength : (stack ⟨innermost, enclosing :: outer⟩).length ≠ 1 := by
            rw [length_stack]
            exact Nat.succ_ne_succ_iff.2 (Nat.succ_ne_zero _)
          simp only [Stack.turn?, if_neg hopen, if_neg hlength, if_true]
          rw [stack_cons, Stack.pop?_concat, Option.bind_eq_bind, Option.bind_some,
            append?_stack]
          rfl
    · have hevent : Event.ofToken token = .atom (Atom.ofToken token) := by
        rw [Event.ofToken, if_neg hopen, if_neg hclose]
      simp only [Stack.turn?, if_neg hopen, if_neg hclose]
      rw [append?_stack, hevent]
      rfl

theorem turn?_stack_eq_goOn_iff (mode : Mode) (state : OpenLists) (token : Text)
    (next : Stack) :
    state.stack.turn? mode token = some (.goOn next) ↔
      ∃ last, state.step (Event.ofToken token) = some last ∧ last.stack = next := by
  rw [turn?_stack]
  cases state.step (Event.ofToken token) with
  | some last => simp
  | none => cases mode <;> simp [Stack.Turn.atStray]

theorem finish?_stack (state : OpenLists) : state.stack.finish? = some state.finish := by
  obtain ⟨innermost, outer⟩ := state
  cases outer with
  | nil => rfl
  | cons enclosing outer =>
      refine if_pos ?_
      rw [length_stack]
      exact Nat.succ_lt_succ (Nat.succ_pos _)

/-- The loop has the outcome of the reader, from every state. -/
theorem read?_stack (mode : Mode) (state : OpenLists) (tokens : List Text) :
    state.stack.read? mode tokens = some (state.read mode (tokens.map Event.ofToken)) := by
  induction tokens generalizing state with
  | nil => exact finish?_stack state
  | cons token rest ih =>
      cases hstep : state.step (Event.ofToken token) with
      | some next =>
          simp only [Stack.read?, turn?_stack, List.map_cons, read, hstep]
          exact ih next
      | none =>
          simp only [Stack.read?, turn?_stack, List.map_cons, read, hstep]
          cases mode with
          | strict => rfl
          | lenient => exact finish?_stack state

theorem keepsOutermost_push (state : OpenLists) (node : Node) :
    state.stack.KeepsOutermost (state.push node).stack := by
  obtain ⟨below, hstack, hpush⟩ := state.stack_eq_concat
  rw [hstack, hpush]
  exact Stack.keepsOutermost_append below _ [node]

/-- A step keeps the outermost list, since only a list inside another one is closed. -/
theorem keepsOutermost_step {state next : OpenLists} {event : Event}
    (hstep : state.step event = some next) : state.stack.KeepsOutermost next.stack := by
  obtain ⟨innermost, outer⟩ := state
  cases event with
  | opening =>
      obtain rfl := Option.some.inj hstep
      rw [stack_cons]
      exact Stack.keepsOutermost_concat (stack_ne_nil _) _
  | closing =>
      cases outer with
      | nil => contradiction
      | cons enclosing outer =>
          obtain rfl := Option.some.inj hstep
          rw [stack_cons, Stack.concat_keepsOutermost_iff (stack_ne_nil _)]
          exact keepsOutermost_push ⟨enclosing, outer⟩ (.list innermost.reverse)
  | atom value =>
      obtain rfl := Option.some.inj hstep
      exact keepsOutermost_push _ _
  | foreign typeName =>
      obtain rfl := Option.some.inj hstep
      exact keepsOutermost_push _ _

/-- The stacks that the loop comes to are those of the states that the reader comes to. -/
theorem exists_advance_of_reaches {mode : Mode} {taken : List Text} {stack : Stack}
    (hreaches : Stack.Reaches mode taken stack) :
    ∃ state, empty.advance (taken.map Event.ofToken) = some state ∧ stack = state.stack := by
  induction hreaches with
  | start => exact ⟨empty, rfl, rfl⟩
  | @turn taken stack next token hreaches hturn ih =>
      obtain ⟨state, hadvance, rfl⟩ := ih
      obtain ⟨last, hstep, rfl⟩ := (turn?_stack_eq_goOn_iff mode state token next).1 hturn
      refine ⟨last, ?_, rfl⟩
      rw [List.map_append, advance_append, hadvance]
      simp [advance, hstep]

end OpenLists

/-- The loop with the stack of open lists is defined and reads what the reader reads.  Every
stack that it comes to is not empty, has the height and the layout that the tokens taken in
so far give it, and decides with the tokens that follow what is read.  The turn for any
token is defined for it, and if the loop goes on, it has kept the outermost list. -/
theorem readTokens_stack_invariant (mode : Mode) :
    (∀ tokens, Stack.read? mode [[]] tokens = some (readTokens mode tokens)) ∧
      ∀ taken stack, Stack.Reaches mode taken stack →
        stack ≠ [] ∧
        stack.length + taken.count [')'] = 1 + taken.count ['('] ∧
        stack.events = taken.map Event.ofToken ∧
        (∀ rest, stack.read? mode rest = some (readTokens mode (taken ++ rest))) ∧
        ∀ token, ∃ turn, stack.turn? mode token = some turn ∧
          ∀ next, turn = .goOn next → stack.KeepsOutermost next := by
  refine ⟨fun tokens => OpenLists.read?_stack mode .empty tokens, fun taken stack hreaches => ?_⟩
  -- Everything is known of the state of the reader that the stack belongs to.
  obtain ⟨state, hadvance, rfl⟩ := OpenLists.exists_advance_of_reaches hreaches
  refine ⟨state.stack_ne_nil, ?_, ?_, fun rest => ?_, fun token => ?_⟩
  · have hdepth := OpenLists.depth_advance hadvance
    rw [Event.count_opening_map_ofToken, Event.count_closing_map_ofToken] at hdepth
    have hempty : OpenLists.empty.depth = 0 := rfl
    rw [OpenLists.length_stack]
    omega
  · rw [OpenLists.events_stack, OpenLists.events_advance hadvance, OpenLists.events_empty,
      List.nil_append]
  · rw [OpenLists.read?_stack, readTokens, readEvents, List.map_append,
      OpenLists.read_append mode hadvance]
  · refine ⟨_, OpenLists.turn?_stack mode state token, fun next hnext => ?_⟩
    have hturn := (OpenLists.turn?_stack mode state token).trans (congrArg some hnext)
    obtain ⟨last, hstep, rfl⟩ := (OpenLists.turn?_stack_eq_goOn_iff mode state token next).1 hturn
    exact OpenLists.keepsOutermost_step hstep

/-- After a list has been closed inside one that is still open, the stack holds the outermost
list and the open one, and it is laid out as the tokens so far. -/
theorem readTokens_stack_invariant_closed_inside :
    Stack.Reaches .strict [['('], ['a'], ['('], ['b'], [')']]
        [[], [.atom (Atom.ofToken ['a']), .list [.atom (Atom.ofToken ['b'])]]] ∧
      Stack.events [[], [.atom (Atom.ofToken ['a']), .list [.atom (Atom.ofToken ['b'])]]] =
        [.opening, .atom (Atom.ofToken ['a']), .opening, .atom (Atom.ofToken ['b']),
          .closing] := by
  have houter : Stack.Reaches .strict [['(']] [[], []] := .turn .start rfl
  have hfirst : Stack.Reaches .strict [['('], ['a']] [[], [.atom (Atom.ofToken ['a'])]] :=
    .turn houter rfl
  have hinner : Stack.Reaches .strict [['('], ['a'], ['(']]
      [[], [.atom (Atom.ofToken ['a'])], []] := .turn hfirst rfl
  have hsecond : Stack.Reaches .strict [['('], ['a'], ['('], ['b']]
      [[], [.atom (Atom.ofToken ['a'])], [.atom (Atom.ofToken ['b'])]] := .turn hinner rfl
  have hclosed : Stack.Reaches .strict [['('], ['a'], ['('], ['b'], [')']]
      [[], [.atom (Atom.ofToken ['a']), .list [.atom (Atom.ofToken ['b'])]]] :=
    .turn hsecond rfl
  exact ⟨hclosed, ((readTokens_stack_invariant .strict).2 _ _ hclosed).2.2.1⟩

end Sexp
