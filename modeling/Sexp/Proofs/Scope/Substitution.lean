import Sexp.Proofs.Node.RoundTrip
import Sexp.Proofs.Reader.Outermost
import Sexp.Proofs.Scope.Following

/-!
# Resolving by substitution

A name that was bound by a token can be resolved before reading, by putting the one token
in the place of the other.  Only the tokens that stand in no list are replaced, and of
these only those that are identifiers; what has been put in is not replaced again.
-/

namespace Sexp

theorem Atom.ofToken_of_isIdentifier {token : Text}
    (hidentifier : (ofToken token).isIdentifier = true) :
    ofToken token = identifier token := by
  rcases ofToken_cases token with ⟨text, -, hatom⟩ | ⟨x, -, hatom⟩ | hatom
  · rw [hatom] at hidentifier
    contradiction
  · rw [hatom] at hidentifier
    contradiction
  · exact hatom

/-- Replaces the tokens that stand in no list, if so many lists are open at the start. -/
def replaceOutermost (replacement? : Text → Option Text) : Nat → List Text → List Text
  | _, [] => []
  | depth, token :: rest =>
      (if depth = 0 then (replacement? token).getD token else token) ::
        replaceOutermost replacement? ((Event.ofToken token).depthAfter depth) rest

/-- Replacing tokens replaces the events of them, if it does so for each token. -/
theorem map_ofToken_replaceOutermost {replacement? : Text → Option Text} {f : Atom → Atom}
    (hreplace : ∀ token, Event.ofToken ((replacement? token).getD token) =
      (Event.ofToken token).mapOutermost f 0) (depth : Nat) (tokens : List Text) :
    (replaceOutermost replacement? depth tokens).map Event.ofToken =
      mapOutermost f depth (tokens.map Event.ofToken) := by
  induction tokens generalizing depth with
  | nil => rfl
  | cons token tokens ih =>
      simp only [replaceOutermost, List.map_cons, mapOutermost, ih]
      congr 1
      cases depth with
      | zero => exact hreplace token
      | succ depth => rfl

/-- The token that a name was bound by. -/
def Given.token? : Given → Option Text
  | atom _ => none
  | token text => some text

namespace History

/-- The token that a token is bound to in a context, if it is an identifier. -/
def replacement? (h : History) (context : Nat) (token : Text) : Option Text :=
  if (Atom.ofToken token).isIdentifier then
    (h.visible? context token).bind (·.given.token?)
  else none

/-- The same for a token that the reader takes for an atom, which a parenthesis is not,
whatever is bound to names that are spelled like it. -/
def atomReplacement? (h : History) (context : Nat) (token : Text) : Option Text :=
  if token = ['('] ∨ token = [')'] then none else h.replacement? context token

/-- Replaces the tokens that stand in no list by what they are bound to in a context. -/
def substitute (h : History) (context : Nat) (tokens : List Text) : List Text :=
  replaceOutermost (h.atomReplacement? context) 0 tokens

/-- All names that are bound as seen from a context were bound by words. -/
def IsBoundByWords (h : History) (context : Nat) : Prop :=
  ∀ name binding, h.visible? context name = some binding →
    ∃ token, binding.given = .token token ∧ token.IsWord

theorem mem_of_visible? {h : History} {context : Nat} {name : Text} {binding : Binding}
    (hvisible : h.visible? context name = some binding) : binding ∈ h.flatMap bindingsOf := by
  obtain ⟨number, -, hlast⟩ := List.exists_of_findSome?_eq_some hvisible
  exact List.mem_reverse.1 (List.mem_of_find?_eq_some hlast)

/-- If all names ever bound were bound by words, so were those that a context sees. -/
theorem isBoundByWords_of_bindings {h : History}
    (hwords : ∀ binding ∈ h.flatMap bindingsOf,
      ∃ token, binding.given = .token token ∧ token.IsWord) (context : Nat) :
    h.IsBoundByWords context :=
  fun _ binding hvisible => hwords binding (mem_of_visible? hvisible)

end History

namespace Store

/-- An atom is replaced by what it is bound to, if it is an identifier. -/
def resolveAtom (store : Store) (number : Nat) : Atom → Atom
  | .identifier name => (store.get? number name).getD (.identifier name)
  | value => value

/-- Resolving replaces the node if it is an atom. -/
theorem resolve_eq_ok (store : Store) (number : Nat) {node : Node} (hpure : node.IsPure) :
    store.resolve number node = .ok (node.mapAtom (store.resolveAtom number)) := by
  cases node with
  | atom value => cases value <;> rfl
  | list items => rfl
  | foreign typeName => exact absurd hpure (Node.not_isPure_foreign typeName)

theorem mapM_resolve_eq_ok (store : Store) (number : Nat) {nodes : List Node}
    (hpure : ∀ node ∈ nodes, node.IsPure) :
    nodes.mapM (store.resolve number) =
      .ok (nodes.map (Node.mapAtom (store.resolveAtom number))) := by
  induction nodes with
  | nil => rfl
  | cons node nodes ih =>
      obtain ⟨hnode, hnodes⟩ := List.forall_mem_cons.1 hpure
      rw [List.mapM_cons, store.resolve_eq_ok number hnode, ih hnodes]
      rfl

/-- Resolving what has been read is reading what has been resolved. -/
theorem resolveSource_eq (store : Store) (number : Nat) (source : Text) (mode : Mode) :
    store.resolveSource number source mode =
      (readEvents mode (mapOutermost (store.resolveAtom number) 0
        (source.tokens.map Event.ofToken))).mapError .illFormed := by
  rw [readEvents_mapOutermost, resolveSource]
  show _ = ((readSource mode source).map _).mapError _
  cases hread : readSource mode source with
  | error failure => rfl
  | ok nodes =>
      have hresolved := store.mapM_resolve_eq_ok number (Node.readable_of_readSource hread).1
      show (nodes.mapM (store.resolve number)).mapError Refusal.notNode = _
      rw [hresolved]
      rfl

/-- Putting in the token that a token is bound to resolves the atom of it. -/
theorem Follows.ofToken_replacement? {store : Store} {h : History}
    (hfollows : store.Follows h) {context : Nat} (hcontext : context < store.size)
    (hbound : h.IsBoundByWords context) {token : Text}
    (htoken : Event.ofToken token = .atom (Atom.ofToken token)) :
    Event.ofToken ((h.replacement? context token).getD token) =
      .atom (store.resolveAtom context (Atom.ofToken token)) := by
  cases hidentifier : (Atom.ofToken token).isIdentifier with
  | false =>
      have hsame : store.resolveAtom context (Atom.ofToken token) = Atom.ofToken token := by
        cases hatom : Atom.ofToken token with
        | identifier name => simp [hatom, Atom.isIdentifier] at hidentifier
        | string text => rfl
        | number x => rfl
      rw [hsame, History.replacement?, hidentifier]
      exact htoken
  | true =>
      have hatom := Atom.ofToken_of_isIdentifier hidentifier
      have hvalue : store.resolveAtom context (Atom.ofToken token) =
          ((h.visible? context token).map (·.given.value)).getD (.identifier token) := by
        rw [hatom, ← hfollows.get?_eq hcontext]
        rfl
      rw [hvalue, History.replacement?, if_pos hidentifier]
      cases hvisible : h.visible? context token with
      | none => exact htoken.trans (congrArg Event.atom hatom)
      | some binding =>
          obtain ⟨text, hgiven, hword⟩ := hbound token binding hvisible
          simp only [Option.bind_some, Option.map_some, Option.getD_some, hgiven, Given.token?,
            Given.value]
          exact Event.ofToken_of_isWord hword

theorem Follows.ofToken_atomReplacement? {store : Store} {h : History}
    (hfollows : store.Follows h) {context : Nat} (hcontext : context < store.size)
    (hbound : h.IsBoundByWords context) (token : Text) :
    Event.ofToken ((h.atomReplacement? context token).getD token) =
      (Event.ofToken token).mapOutermost (store.resolveAtom context) 0 := by
  rw [History.atomReplacement?]
  split
  · next hparenthesis => rcases hparenthesis with rfl | rfl <;> rfl
  · next hother =>
    obtain ⟨hopen, hclose⟩ := not_or.1 hother
    have htoken : Event.ofToken token = .atom (Atom.ofToken token) := by
      rw [Event.ofToken, if_neg hopen, if_neg hclose]
    rw [hfollows.ofToken_replacement? hcontext hbound htoken, htoken]
    rfl

end Store

/-- Reading a source text and resolving what has been read has the outcome, trees or
failure, of reading the tokens that are left when each identifier outside of all lists has
been replaced by the token it is bound to, if all bindings in sight were made by words. -/
theorem session_resolveSource (steps : List Step) {context : Nat} (source : Text) (mode : Mode)
    (hcontext : context < (Store.after steps).size)
    (hbound : (history steps).IsBoundByWords context) :
    session (steps ++ [.resolveSource context source mode]) =
      session steps ++
        [((readTokens mode ((history steps).substitute context source.tokens)).mapError
          .illFormed).map .nodes] := by
  have hreplace := (Store.follows_history steps).ofToken_atomReplacement? hcontext hbound
  have hperform : (Store.after steps).perform (.resolveSource context source mode) = _ :=
    Store.perform_of_ask hcontext rfl
  rw [session_append, Store.run, hperform, Store.resolveSource_eq, readTokens,
    History.substitute, map_ofToken_replaceOutermost hreplace]
  rfl

/-- The name in the list, the string that is spelled like a name, and the name that has been
put in stay as they are. -/
theorem session_resolveSource_of_names :
    let steps : List Step :=
      [.new [] .none, .defineToken 0 ['x'] ['y'], .defineToken 0 ['y'] ['z'],
        .defineToken 0 ['\x22', 'q', '\x22'] ['z']]
    0 < (Store.after steps).size ∧ (history steps).IsBoundByWords 0 ∧
      session (steps ++ [.resolveSource 0 "x \x22q\x22 (x) ) (".toList .lenient]) =
        session steps ++
          [.ok (.nodes [.atom (.identifier ['y']), .atom (.string ['q']),
            .list [.atom (.identifier ['x'])]])] := by
  intro steps
  have hbound : (history steps).IsBoundByWords 0 := by
    have hbindings : (history steps).flatMap History.bindingsOf =
        [⟨0, ['x'], .token ['y']⟩, ⟨0, ['y'], .token ['z']⟩,
          ⟨0, ['\x22', 'q', '\x22'], .token ['z']⟩] := rfl
    apply History.isBoundByWords_of_bindings
    simp only [hbindings, List.forall_mem_cons]
    exact ⟨⟨['y'], rfl, by decide⟩, ⟨['z'], rfl, by decide⟩, ⟨['z'], rfl, by decide⟩,
      List.forall_mem_nil _⟩
  have hevents : ((history steps).substitute 0 (Text.tokens "x \x22q\x22 (x) ) (".toList)).map
      Event.ofToken = [.atom (.identifier ['y']), .atom (.string ['q']), .opening,
        .atom (.identifier ['x']), .closing, .closing, .opening] := by
    decide +kernel
  refine ⟨by decide, hbound, ?_⟩
  rw [session_resolveSource steps _ .lenient (by decide) hbound, readTokens, hevents]
  rfl

/-- A parenthesis may not be replaced, although a name can be spelled like it and it would be
an identifier if it were an atom: a stray closing parenthesis stops the reader, whatever
the name is bound to. -/
theorem session_resolveSource_ne_of_parenthesis :
    let steps : List Step := [.new [] .none, .defineToken 0 [')'] ['x']]
    0 < (Store.after steps).size ∧ (history steps).IsBoundByWords 0 ∧
      session (steps ++ [.resolveSource 0 [')'] .lenient]) =
        session steps ++ [.ok (.nodes [])] ∧
      session (steps ++ [.resolveSource 0 [')'] .lenient]) ≠
        session steps ++
          [((readTokens .lenient (replaceOutermost ((history steps).replacement? 0) 0
            (Text.tokens [')']))).mapError .illFormed).map .nodes] := by
  intro steps
  have hbound : (history steps).IsBoundByWords 0 := by
    have hbindings : (history steps).flatMap History.bindingsOf =
        [⟨0, [')'], .token ['x']⟩] := rfl
    apply History.isBoundByWords_of_bindings
    simp only [hbindings, List.forall_mem_cons]
    exact ⟨⟨['x'], rfl, by decide⟩, List.forall_mem_nil _⟩
  have hresolved : session (steps ++ [.resolveSource 0 [')'] .lenient]) =
      session steps ++ [.ok (.nodes [])] := by
    have htokens : (Text.tokens [')']).map Event.ofToken = [.closing] := by
      decide +kernel
    have hperform : (Store.after steps).perform (.resolveSource 0 [')'] .lenient) = _ :=
      Store.perform_of_ask (by decide) rfl
    rw [session_append, Store.run, hperform, Store.resolveSource, readSource, readTokens, htokens]
    rfl
  have hreplaced : readTokens .lenient
      (replaceOutermost ((history steps).replacement? 0) 0 (Text.tokens [')'])) =
        .ok [.atom (.identifier ['x'])] := by
    have hevents : (replaceOutermost ((history steps).replacement? 0) 0
        (Text.tokens [')'])).map Event.ofToken = [.atom (.identifier ['x'])] := by
      decide +kernel
    rw [readTokens, hevents]
    rfl
  refine ⟨by decide, hbound, hresolved, ?_⟩
  rw [hresolved, hreplaced]
  intro hsame
  have hlast := List.append_cancel_left hsame
  simp [Except.map, Except.mapError] at hlast

end Sexp
