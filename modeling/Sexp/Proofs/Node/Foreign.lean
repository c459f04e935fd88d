import Sexp.Node.Json
import Sexp.Node.Source
import Sexp.Proofs.Node.Leaves

/-!
# Trees with foreign values

Source text and JSON text are written by two recursions, of which the one writes texts at
once and the other makes a value before it writes anything.  Both go through a tree from
left to right and give up at the first value that is not a node.  So they fail for the same
trees, and for the same reason: the first foreign event in the layout of the tree.
-/

namespace Sexp

/-- The name of the type of a foreign value. -/
def Event.foreignName? : Event → Option Text
  | foreign typeName => some typeName
  | _ => none

namespace Node

/-- The name of the type of the first foreign value of a tree, from left to right. -/
def firstForeign? (node : Node) : Option Text := node.events.findSome? Event.foreignName?

/-- The name of the type of the first foreign value of some trees, from left to right. -/
def firstForeignOf? (nodes : List Node) : Option Text :=
  (eventsAll nodes).findSome? Event.foreignName?

theorem firstForeign?_list (items : List Node) :
    (list items).firstForeign? = firstForeignOf? items := by
  rw [firstForeign?, events, List.findSome?_append, List.findSome?_cons]
  exact Option.or_none

theorem firstForeignOf?_cons (node : Node) (rest : List Node) :
    firstForeignOf? (node :: rest) = node.firstForeign?.or (firstForeignOf? rest) := by
  rw [firstForeignOf?, eventsAll, List.findSome?_append]
  rfl

theorem firstForeign?_eq_none_iff (node : Node) :
    node.firstForeign? = none ↔ node.IsPure := by
  rw [firstForeign?, List.findSome?_eq_none_iff, IsPure]
  constructor
  · intro hnone typeName hforeign
    exact absurd (hnone _ hforeign) (Option.some_ne_none typeName)
  · intro hpure event hevent
    cases event with
    | foreign typeName => exact absurd hevent (hpure typeName)
    | _ => rfl

/-- Before the first foreign value of a tree there are events of nodes only. -/
theorem exists_events_of_firstForeign? {node : Node} {typeName : Text}
    (hfirst : node.firstForeign? = some typeName) :
    ∃ before after, node.events = before ++ .foreign typeName :: after ∧
      ∀ name, Event.foreign name ∉ before := by
  obtain ⟨before, event, after, hevents, hevent, hbefore⟩ :=
    List.findSome?_eq_some_iff.1 hfirst
  cases event with
  | foreign name =>
      obtain rfl := Option.some.inj hevent
      refine ⟨before, after, hevents, fun name hforeign => ?_⟩
      exact absurd (hbefore _ hforeign) (Option.some_ne_none name)
  | _ => contradiction

end Node

/-- An outcome is decided by a possible offender: it is a failure that names the offender, or a
success if there is none. -/
def FailsAt {α : Type} (outcome : Except NotNode α) : Option Text → Prop
  | some typeName => outcome = .error ⟨typeName⟩
  | none => ∃ value, outcome = .ok value

theorem failsAt_pure {α : Type} (value : α) : FailsAt (.ok value) none := ⟨value, rfl⟩

/-- Of two parts that are done one after the other the first decides, unless it succeeds. -/
theorem FailsAt.bind {α β : Type} {outcome : Except NotNode α}
    {next : α → Except NotNode β} {offender offender' : Option Text}
    (hfirst : FailsAt outcome offender) (hnext : ∀ value, FailsAt (next value) offender') :
    FailsAt (outcome >>= next) (offender.or offender') := by
  cases offender with
  | some typeName =>
      obtain rfl : outcome = .error ⟨typeName⟩ := hfirst
      rfl
  | none =>
      obtain ⟨value, rfl⟩ := hfirst
      exact hnext value

/-- What is only rearranged after its success fails as before. -/
theorem FailsAt.bind_pure {α β : Type} {outcome : Except NotNode α} {offender : Option Text}
    (hfirst : FailsAt outcome offender) (f : α → β) :
    FailsAt (outcome >>= fun value => .ok (f value)) offender := by
  have hbind := hfirst.bind fun value => failsAt_pure (f value)
  rwa [Option.or_none] at hbind

namespace Node

mutual

theorem failsAt_source : ∀ node : Node, FailsAt node.source node.firstForeign?
  | atom a => failsAt_pure a.source
  | list items => by
      rw [firstForeign?_list, source]
      exact (failsAt_sources items).bind_pure _
  | foreign _ => rfl

theorem failsAt_sources : ∀ nodes : List Node, FailsAt (sources nodes) (firstForeignOf? nodes)
  | [] => failsAt_pure []
  | node :: rest => by
      rw [firstForeignOf?_cons, sources]
      exact (failsAt_source node).bind fun _ => (failsAt_sources rest).bind_pure _

end

mutual

theorem failsAt_toJson : ∀ node : Node, FailsAt node.toJson node.firstForeign?
  | atom a => failsAt_pure a.toJson
  | list items => by
      rw [firstForeign?_list, toJson]
      exact (failsAt_toJsonAll items).bind_pure _
  | foreign _ => rfl

theorem failsAt_toJsonAll : ∀ nodes : List Node,
    FailsAt (toJsonAll nodes) (firstForeignOf? nodes)
  | [] => failsAt_pure []
  | node :: rest => by
      rw [firstForeignOf?_cons, toJsonAll]
      exact (failsAt_toJson node).bind fun _ => (failsAt_toJsonAll rest).bind_pure _

end

theorem failsAt_jsonText (node : Node) : FailsAt node.jsonText node.firstForeign? :=
  (failsAt_toJson node).bind_pure _

/-- A tree without foreign values has a JSON text and a source text.  Any other tree has
neither, for one and the same reason: the foreign value that has no other before it in the
layout of the tree. -/
theorem renderings_of_firstForeign? (node : Node) :
    match node.firstForeign? with
    | none =>
        node.IsPure ∧ (∃ text, node.jsonText = .ok text) ∧ ∃ text, node.source = .ok text
    | some typeName =>
        (∃ before after, node.events = before ++ .foreign typeName :: after ∧
          ∀ name, Event.foreign name ∉ before) ∧
        node.jsonText = .error ⟨typeName⟩ ∧ node.source = .error ⟨typeName⟩ ∧
          (NotNode.mk typeName).message = "not an LL node: ".toList ++ typeName := by
  have hjson := node.failsAt_jsonText
  have hsource := node.failsAt_source
  cases hfirst : node.firstForeign? with
  | none =>
      rw [hfirst] at hjson hsource
      exact ⟨(firstForeign?_eq_none_iff node).1 hfirst, hjson, hsource⟩
  | some typeName =>
      rw [hfirst] at hjson hsource
      exact ⟨exists_events_of_firstForeign? hfirst, hjson, hsource, rfl⟩

example : (list [list [atom (.string []), foreign ['s']], foreign ['t']]).source = .error ⟨['s']⟩ :=
  rfl

end Node

end Sexp
