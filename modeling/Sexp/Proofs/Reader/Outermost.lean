import Sexp.Proofs.Reader.Outcome

/-!
# Replacing atoms at the outermost level

The reader does not look at what an atom is.  So it makes no difference whether the atoms
that stand in no list are replaced in the events before reading or among the trees after
it, in either mode and also when reading fails.
-/

namespace Sexp

/-- How many lists are open after an event, if so many were open before it. -/
def Event.depthAfter (depth : Nat) : Event → Nat
  | opening => depth + 1
  | closing => depth - 1
  | _ => depth

/-- Replaces an atom that stands in no list. -/
def Event.mapOutermost (f : Atom → Atom) : Nat → Event → Event
  | 0, atom value => atom (f value)
  | _, event => event

/-- Replaces the atoms that stand in no list, if so many lists are open at the start. -/
def mapOutermost (f : Atom → Atom) : Nat → List Event → List Event
  | _, [] => []
  | depth, event :: rest =>
      event.mapOutermost f depth :: mapOutermost f (event.depthAfter depth) rest

/-- Replaces a node that is an atom. -/
def Node.mapAtom (f : Atom → Atom) : Node → Node
  | atom value => atom (f value)
  | node => node

namespace OpenLists

/-- Replaces the atoms of the last list of some. -/
def mapLast (f : Atom → Atom) : List (List Node) → List (List Node)
  | [] => []
  | [outermost] => [outermost.map (Node.mapAtom f)]
  | inner :: outer => inner :: mapLast f outer

/-- Replaces the atoms of the outermost list. -/
def mapOutermost (f : Atom → Atom) : OpenLists → OpenLists
  | ⟨innermost, []⟩ => ⟨innermost.map (Node.mapAtom f), []⟩
  | ⟨innermost, outer⟩ => ⟨innermost, mapLast f outer⟩

theorem depth_eq_depthAfter {state next : OpenLists} {event : Event}
    (hstep : state.step event = some next) : next.depth = event.depthAfter state.depth := by
  have hdepth := depth_step hstep
  cases event with
  | opening => simpa [Event.depthAfter] using hdepth
  | closing =>
      rw [List.count_singleton_self] at hdepth
      show next.depth = state.depth - 1
      exact Nat.eq_sub_of_add_eq hdepth
  | atom value => simpa [Event.depthAfter] using hdepth
  | foreign typeName => simpa [Event.depthAfter] using hdepth

variable (f : Atom → Atom)

/-- Replacing atoms commutes with a step. -/
theorem step_mapOutermost (state : OpenLists) (event : Event) :
    (state.mapOutermost f).step (event.mapOutermost f state.depth) =
      (state.step event).map (mapOutermost f) := by
  obtain ⟨innermost, outer⟩ := state
  cases outer with
  | nil => cases event <;> rfl
  | cons enclosing outer =>
      cases event with
      | closing => cases outer <;> rfl
      | opening => rfl
      | atom value => rfl
      | foreign typeName => rfl

theorem finish_mapOutermost (state : OpenLists) :
    (state.mapOutermost f).finish = state.finish.map (List.map (Node.mapAtom f)) := by
  obtain ⟨innermost, outer⟩ := state
  cases outer with
  | nil => simp [mapOutermost, finish, Except.map]
  | cons enclosing outer => cases outer <;> rfl

/-- Replacing atoms commutes with reading on from any state. -/
theorem read_mapOutermost (mode : Mode) (state : OpenLists) (events : List Event) :
    (state.mapOutermost f).read mode (Sexp.mapOutermost f state.depth events) =
      (state.read mode events).map (List.map (Node.mapAtom f)) := by
  induction events generalizing state with
  | nil => exact finish_mapOutermost f state
  | cons event events ih =>
      refine read_cons_map (finish_mapOutermost f state) (step_mapOutermost f state event) ?_
      intro next hstep
      rw [← depth_eq_depthAfter hstep]
      exact ih next

end OpenLists

theorem readEvents_mapOutermost (f : Atom → Atom) (mode : Mode) (events : List Event) :
    readEvents mode (mapOutermost f 0 events) =
      (readEvents mode events).map (List.map (Node.mapAtom f)) :=
  OpenLists.read_mapOutermost f mode .empty events

end Sexp
