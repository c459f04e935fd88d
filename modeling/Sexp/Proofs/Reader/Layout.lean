import Sexp.Reader.Basic

/-!
# Reading and the layout of trees

The lists that are being read have a layout of their own: the events of the
finished elements, with one opening between a list and the list inside it.  Every
step adds the event that it takes in at the end of this layout, and the events of a
tree take the reader to the state with that tree appended.  Together the two facts
say that the strict reader is the inverse of laying trees out: it succeeds with some
trees exactly when the events are the layout of these trees.
-/

namespace Sexp

namespace OpenLists

/-- The layout of the lists around the innermost one, outermost first, each with the
opening of the next one after its elements. -/
def outerEvents : List (List Node) → List Event
  | [] => []
  | enclosing :: outer =>
      outerEvents outer ++ Node.eventsAll enclosing.reverse ++ [.opening]

/-- The layout of all lists that are being read. -/
def events (state : OpenLists) : List Event :=
  outerEvents state.outer ++ Node.eventsAll state.innermost.reverse

@[simp] theorem events_empty : empty.events = [] := rfl

theorem events_push (state : OpenLists) (node : Node) :
    (state.push node).events = state.events ++ node.events := by
  simp [events, push, Node.eventsAll]

/-- A step puts the event that it takes in at the end of the layout. -/
theorem events_step {state next : OpenLists} {event : Event}
    (hstep : state.step event = some next) : next.events = state.events ++ [event] := by
  obtain ⟨innermost, outer⟩ := state
  cases event with
  | opening =>
      obtain rfl := Option.some.inj hstep
      simp [events, outerEvents, Node.eventsAll]
  | closing =>
      cases outer with
      | nil => simp [step] at hstep
      | cons enclosing outer =>
          -- The opening that stood between the two lists now begins the finished one.
          obtain rfl := Option.some.inj hstep
          simp [events, outerEvents, Node.eventsAll, Node.events]
  | atom value =>
      obtain rfl := Option.some.inj hstep
      rw [events_push, Node.events]
  | foreign typeName =>
      obtain rfl := Option.some.inj hstep
      rw [events_push, Node.events]

/-- The state after a sequence of events, unless a closing without an opening is
among them. -/
def advance (state : OpenLists) : List Event → Option OpenLists
  | [] => some state
  | event :: rest => (state.step event).bind fun next => next.advance rest

theorem advance_append (state : OpenLists) (taken rest : List Event) :
    state.advance (taken ++ rest) = (state.advance taken).bind (·.advance rest) := by
  induction taken generalizing state with
  | nil => rfl
  | cons event taken ih =>
      simp only [List.cons_append, advance, Option.bind_assoc]
      cases state.step event with
      | none => rfl
      | some next => exact ih next

theorem events_advance {state last : OpenLists} {taken : List Event}
    (hadvance : state.advance taken = some last) : last.events = state.events ++ taken := by
  induction taken generalizing state with
  | nil =>
      obtain rfl := Option.some.inj hadvance
      simp
  | cons event taken ih =>
      obtain ⟨next, hstep, hrest⟩ := Option.bind_eq_some_iff.1 hadvance
      rw [ih hrest, events_step hstep, List.append_assoc, List.singleton_append]

theorem read_of_advance {state last : OpenLists} {taken : List Event} (mode : Mode)
    (hadvance : state.advance taken = some last) : state.read mode taken = last.finish := by
  induction taken generalizing state with
  | nil =>
      obtain rfl := Option.some.inj hadvance
      rfl
  | cons event taken ih =>
      obtain ⟨next, hstep, hrest⟩ := Option.bind_eq_some_iff.1 hadvance
      simp only [read, hstep]
      exact ih hrest

/-- A result of either mode is the result of a run over some first part of the events,
which in strict mode is all of them. -/
theorem advance_of_read {mode : Mode} {state : OpenLists} {events : List Event}
    {forest : List Node} (hread : state.read mode events = .ok forest) :
    ∃ taken last, taken <+: events ∧ (mode = .strict → taken = events) ∧
      state.advance taken = some last ∧ last.finish = .ok forest := by
  induction events generalizing state with
  | nil => exact ⟨[], state, List.prefix_rfl, fun _ => rfl, rfl, hread⟩
  | cons event events ih =>
      cases hstep : state.step event with
      | none =>
          -- The closing is stray: only the lenient mode has a result here.
          cases mode with
          | strict => simp [read, hstep] at hread
          | lenient =>
              simp only [read, hstep] at hread
              exact ⟨[], state, List.nil_prefix, by simp, rfl, hread⟩
      | some next =>
          simp only [read, hstep] at hread
          obtain ⟨taken, last, hprefix, hall, hadvance, hfinish⟩ := ih hread
          refine ⟨event :: taken, last, (List.prefix_cons_inj event).2 hprefix, ?_, ?_, hfinish⟩
          · intro hstrict
            rw [hall hstrict]
          · simp [advance, hstep, hadvance]

theorem finish_eq_ok_iff (state : OpenLists) (forest : List Node) :
    state.finish = .ok forest ↔ state = ⟨forest.reverse, []⟩ := by
  obtain ⟨innermost, outer⟩ := state
  cases outer with
  | nil =>
      simp only [finish, Except.ok.injEq, mk.injEq, and_true]
      constructor
      · intro hforest
        rw [← hforest, List.reverse_reverse]
      · intro hinnermost
        rw [hinnermost, List.reverse_reverse]
  | cons enclosing outer => simp [finish]

mutual

/-- The events of a node append that node to the innermost list. -/
theorem advance_events (state : OpenLists) :
    ∀ node : Node, state.advance node.events = some (state.push node)
  | .atom _ => rfl
  | .foreign _ => rfl
  | .list items => by
      -- The elements go into a new innermost list, which the closing appends as a whole.
      have hitems := advance_eventsAll ⟨[], state.innermost :: state.outer⟩ items
      simp only [Node.events, List.cons_append, advance, step, Option.bind_some]
      rw [advance_append, hitems]
      simp [advance, step, push]

theorem advance_eventsAll (state : OpenLists) :
    ∀ nodes : List Node, state.advance (Node.eventsAll nodes) =
      some ⟨nodes.reverse ++ state.innermost, state.outer⟩
  | [] => rfl
  | node :: rest => by
      have hnode := advance_events state node
      have hrest := advance_eventsAll (state.push node) rest
      rw [Node.eventsAll, advance_append, hnode, Option.bind_some, hrest]
      simp [push]

end

end OpenLists

/-- In either mode, laying trees out and reading the events gives the trees back. -/
theorem readEvents_eventsAll (mode : Mode) (forest : List Node) :
    readEvents mode (Node.eventsAll forest) = .ok forest := by
  have hadvance := OpenLists.advance_eventsAll .empty forest
  rw [readEvents, OpenLists.read_of_advance mode hadvance, OpenLists.finish_eq_ok_iff]
  simp [OpenLists.empty]

theorem eventsAll_of_advance {taken : List Event} {last : OpenLists} {forest : List Node}
    (hadvance : OpenLists.empty.advance taken = some last)
    (hfinish : last.finish = .ok forest) : Node.eventsAll forest = taken := by
  have hevents := OpenLists.events_advance hadvance
  rw [(OpenLists.finish_eq_ok_iff last forest).1 hfinish, OpenLists.events_empty,
    List.nil_append] at hevents
  simpa [OpenLists.events, OpenLists.outerEvents] using hevents

/-- The strict reader succeeds with some trees exactly on their layout. -/
theorem readEvents_strict_eq_ok_iff (events : List Event) (forest : List Node) :
    readEvents .strict events = .ok forest ↔ Node.eventsAll forest = events := by
  constructor
  · intro hread
    obtain ⟨taken, last, -, hall, hadvance, hfinish⟩ := OpenLists.advance_of_read hread
    rw [eventsAll_of_advance hadvance hfinish, hall rfl]
  · rintro rfl
    exact readEvents_eventsAll .strict forest

/-- In either mode the layout of the trees read is a first part of the events. -/
theorem eventsAll_prefix_of_readEvents {mode : Mode} {events : List Event}
    {forest : List Node} (hread : readEvents mode events = .ok forest) :
    Node.eventsAll forest <+: events := by
  obtain ⟨taken, last, hprefix, -, hadvance, hfinish⟩ := OpenLists.advance_of_read hread
  rwa [eventsAll_of_advance hadvance hfinish]

theorem exists_map_ofToken {events : List Event}
    (hspelled : ∀ event ∈ events, ∃ token, Event.ofToken token = event) :
    ∃ spelling : List Text, spelling.map Event.ofToken = events := by
  induction events with
  | nil => exact ⟨[], rfl⟩
  | cons event events ih =>
      obtain ⟨token, rfl⟩ := hspelled event List.mem_cons_self
      obtain ⟨spelling, rfl⟩ := ih fun event' hevent =>
        hspelled event' (List.mem_cons_of_mem _ hevent)
      exact ⟨token :: spelling, rfl⟩

theorem Event.ofToken_eq_atom_iff (token : Text) (a : Atom) :
    Event.ofToken token = .atom a ↔ token ≠ ['('] ∧ token ≠ [')'] ∧ Atom.ofToken token = a := by
  unfold Event.ofToken
  split
  · next hopen => simp [hopen]
  · next hopen =>
    split
    · next hclose => simp [hclose]
    · next hclose => simp [hopen, hclose]

theorem Event.ofToken_ne_foreign (token typeName : Text) :
    Event.ofToken token ≠ .foreign typeName := by
  unfold Event.ofToken
  split
  · exact Event.noConfusion
  · split <;> exact Event.noConfusion

/-- A token is classified as an identifier under its own text only. -/
theorem Atom.eq_of_ofToken_eq_identifier {token name : Text}
    (htoken : Atom.ofToken token = .identifier name) : token = name := by
  unfold Atom.ofToken at htoken
  split at htoken
  · contradiction
  · contradiction
  · exact Atom.identifier.inj htoken

/-- The strict reader accepts exactly the layouts of trees, with the one tree sequence
that has the layout: no token is lost, doubled, moved or put into another list.  A tree
sequence can be read from some tokens exactly when it has no foreign values and each of its
atoms is what a token other than the two parentheses is classified as, and then its own
layout, spelled by such tokens, is read as it. -/
theorem readTokens_strict_eq_ok_iff_layout (tokens : List Text) (forest : List Node) :
    (readTokens .strict tokens = .ok forest ↔
        Node.eventsAll forest = tokens.map Event.ofToken) ∧
      ((∃ spelling : List Text, spelling.map Event.ofToken = Node.eventsAll forest ∧
          readTokens .strict spelling = .ok forest) ↔
        (∀ typeName, Event.foreign typeName ∉ Node.eventsAll forest) ∧
          ∀ a, Event.atom a ∈ Node.eventsAll forest →
            ∃ token, token ≠ ['('] ∧ token ≠ [')'] ∧ Atom.ofToken token = a) := by
  refine ⟨readEvents_strict_eq_ok_iff _ _, ?_⟩
  constructor
  · rintro ⟨spelling, hspelling, -⟩
    rw [← hspelling]
    constructor
    · intro typeName hforeign
      obtain ⟨token, -, htoken⟩ := List.mem_map.1 hforeign
      exact Event.ofToken_ne_foreign token typeName htoken
    · intro a hatom
      obtain ⟨token, -, htoken⟩ := List.mem_map.1 hatom
      exact ⟨token, (Event.ofToken_eq_atom_iff token a).1 htoken⟩
  · rintro ⟨hpure, hatoms⟩
    have hspelled : ∀ event ∈ Node.eventsAll forest, ∃ token, Event.ofToken token = event := by
      intro event hevent
      cases event with
      | opening => exact ⟨['('], rfl⟩
      | closing => exact ⟨[')'], rfl⟩
      | atom a =>
          obtain ⟨token, htoken⟩ := hatoms a hevent
          exact ⟨token, (Event.ofToken_eq_atom_iff token a).2 htoken⟩
      | foreign typeName => exact absurd hevent (hpure typeName)
    obtain ⟨spelling, hspelling⟩ := exists_map_ofToken hspelled
    exact ⟨spelling, hspelling, (readEvents_strict_eq_ok_iff _ _).2 hspelling.symm⟩

/-- The token of one opening parenthesis would be an identifier if it were an atom.  It is not
read as one, and no tokens are read as the sequence of this one atom. -/
theorem readTokens_strict_ne_of_parenthesis :
    Atom.ofToken ['('] = .identifier ['('] ∧
      readTokens .strict [['(']] = .error .unterminated ∧
      ∀ tokens, readTokens .strict tokens ≠ .ok [.atom (.identifier ['('])] := by
  refine ⟨by decide +kernel, rfl, fun tokens hread => ?_⟩
  have hlayout := (readEvents_strict_eq_ok_iff _ _).1 hread
  have hatom : Event.atom (.identifier ['(']) ∈ tokens.map Event.ofToken := by
    rw [← hlayout]
    exact List.mem_cons_self
  obtain ⟨token, -, htoken⟩ := List.mem_map.1 hatom
  obtain ⟨hopen, -, hidentifier⟩ := (Event.ofToken_eq_atom_iff token _).1 htoken
  exact hopen (Atom.eq_of_ofToken_eq_identifier hidentifier)

end Sexp
