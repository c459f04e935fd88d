import Sexp.Proofs.Reader.Layout

/-!
# Outcomes of reading

How many lists are open is a matter of counting: the openings taken in, less the
closings.  A closing before which the two numbers are equal is stray, and the reader
stops at the first of these and at nothing else.  So the place of the first stray
closing, and the two numbers when there is none, decide which outcome reading has in
either mode.
-/

namespace Sexp

namespace OpenLists

theorem depth_step {state next : OpenLists} {event : Event}
    (hstep : state.step event = some next) :
    next.depth + [event].count .closing = state.depth + [event].count .opening := by
  obtain ⟨innermost, outer⟩ := state
  cases event with
  | opening =>
      obtain rfl := Option.some.inj hstep
      rfl
  | closing =>
      cases outer with
      | nil => contradiction
      | cons enclosing outer =>
          obtain rfl := Option.some.inj hstep
          rfl
  | atom value =>
      obtain rfl := Option.some.inj hstep
      rfl
  | foreign typeName =>
      obtain rfl := Option.some.inj hstep
      rfl

/-- The lists that are open are the openings taken in, less the closings. -/
theorem depth_advance {state last : OpenLists} {taken : List Event}
    (hadvance : state.advance taken = some last) :
    last.depth + taken.count .closing = state.depth + taken.count .opening := by
  induction taken generalizing state with
  | nil =>
      obtain rfl := Option.some.inj hadvance
      rfl
  | cons event taken ih =>
      obtain ⟨next, hstep, hrest⟩ := Option.bind_eq_some_iff.1 hadvance
      have hevent := depth_step hstep
      have htaken := ih hrest
      rw [← List.singleton_append, List.count_append, List.count_append]
      omega

theorem depth_eq_zero_iff (state : OpenLists) : state.depth = 0 ↔ state.outer = [] :=
  List.length_eq_zero_iff

/-- A run that does not come to its end has taken in all events before a closing that
it met when no list was open. -/
theorem exists_of_advance_eq_none {state : OpenLists} {events : List Event}
    (hadvance : state.advance events = none) :
    ∃ taken rest last, events = taken ++ .closing :: rest ∧
      state.advance taken = some last ∧ last.outer = [] := by
  induction events generalizing state with
  | nil => contradiction
  | cons event events ih =>
      cases hstep : state.step event with
      | none =>
          obtain ⟨rfl, houter⟩ := (step_eq_none_iff state event).1 hstep
          exact ⟨[], events, state, rfl, rfl, houter⟩
      | some next =>
          have hrest : next.advance events = none := by
            simpa [advance, hstep] using hadvance
          obtain ⟨taken, rest, last, rfl, htaken, houter⟩ := ih hrest
          refine ⟨event :: taken, rest, last, rfl, ?_, houter⟩
          simp [advance, hstep, htaken]

/-- What has been taken in acts on the rest of the reading through the state alone. -/
theorem read_append {state last : OpenLists} {taken : List Event} (mode : Mode)
    (hadvance : state.advance taken = some last) (rest : List Event) :
    state.read mode (taken ++ rest) = last.read mode rest := by
  induction taken generalizing state with
  | nil =>
      obtain rfl := Option.some.inj hadvance
      rfl
  | cons event taken ih =>
      obtain ⟨next, hstep, hnext⟩ := Option.bind_eq_some_iff.1 hadvance
      simp only [List.cons_append, read, hstep]
      exact ih hnext

/-- One event of two readings that go side by side: their states correspond before it and
after it, and so the readings do if they do for the rest. -/
theorem read_cons_map {onState : OpenLists → OpenLists} {onForest : List Node → List Node}
    {mode : Mode} {state : OpenLists} {event event' : Event} {rest rest' : List Event}
    (hfinish : (onState state).finish = state.finish.map onForest)
    (hstep : (onState state).step event' = (state.step event).map onState)
    (hrest : ∀ next, state.step event = some next →
      (onState next).read mode rest' = (next.read mode rest).map onForest) :
    (onState state).read mode (event' :: rest') =
      (state.read mode (event :: rest)).map onForest := by
  cases hnext : state.step event with
  | some next =>
      rw [hnext, Option.map_some] at hstep
      simp only [read, hstep, hnext]
      exact hrest next hnext
  | none =>
      rw [hnext, Option.map_none] at hstep
      simp only [read, hstep, hnext]
      cases mode with
      | strict => rfl
      | lenient => exact hfinish

theorem read_strict_of_stray {state : OpenLists} (houter : state.outer = [])
    (rest : List Event) :
    state.read .strict (.closing :: rest) = .error .unexpectedClose := by
  have hstep := (step_eq_none_iff state .closing).2 ⟨rfl, houter⟩
  simp only [read, hstep]

theorem read_lenient_of_stray {state : OpenLists} (houter : state.outer = [])
    (rest : List Event) : state.read .lenient (.closing :: rest) = state.finish := by
  have hstep := (step_eq_none_iff state .closing).2 ⟨rfl, houter⟩
  simp only [read, hstep]

theorem finish_of_outer_eq_nil {state : OpenLists} (houter : state.outer = []) :
    state.finish = .ok state.innermost.reverse := by
  rw [finish, houter]

theorem finish_of_outer_ne_nil {state : OpenLists} (houter : state.outer ≠ []) :
    state.finish = .error .unterminated := by
  obtain ⟨enclosing, outer, hcons⟩ := List.exists_cons_of_ne_nil houter
  rw [finish, hcons]

end OpenLists

namespace Event

theorem ofToken_eq_opening_iff (token : Text) : ofToken token = .opening ↔ token = ['('] := by
  unfold ofToken
  split
  · simpa
  · split <;> simpa

theorem ofToken_eq_closing_iff (token : Text) : ofToken token = .closing ↔ token = [')'] := by
  unfold ofToken
  split
  · next hopen => simp [hopen]
  · split <;> simpa

theorem count_opening_map_ofToken (tokens : List Text) :
    (tokens.map ofToken).count .opening = tokens.count ['('] := by
  rw [List.count, List.countP_map, List.count]
  refine List.countP_congr fun token _ => ?_
  simp [ofToken_eq_opening_iff]

theorem count_closing_map_ofToken (tokens : List Text) :
    (tokens.map ofToken).count .closing = tokens.count [')'] := by
  rw [List.count, List.countP_map, List.count]
  refine List.countP_congr fun token _ => ?_
  simp [ofToken_eq_closing_iff]

end Event

/-- The token at a place is a closing parenthesis that closes nothing: before it stand as
many closing parentheses as opening ones. -/
def IsStray (tokens : List Text) (place : Nat) : Prop :=
  tokens[place]? = some [')'] ∧
    (tokens.take place).count ['('] = (tokens.take place).count [')']

instance (tokens : List Text) (place : Nat) : Decidable (IsStray tokens place) :=
  inferInstanceAs (Decidable (_ ∧ _))

/-- The place of the first stray closing parenthesis. -/
def firstStray? (tokens : List Text) : Option Nat :=
  (List.range tokens.length).find? fun place => decide (IsStray tokens place)

theorem IsStray.lt_length {tokens : List Text} {place : Nat} (hstray : IsStray tokens place) :
    place < tokens.length :=
  (List.getElem?_eq_some_iff.1 hstray.1).1

theorem isStray_take_iff (tokens : List Text) {place last : Nat} (hlt : place < last) :
    IsStray (tokens.take last) place ↔ IsStray tokens place := by
  rw [IsStray, IsStray, List.getElem?_take_of_lt hlt, List.take_take,
    Nat.min_eq_left (Nat.le_of_lt hlt)]

theorem firstStray?_eq_none_iff (tokens : List Text) :
    firstStray? tokens = none ↔ ∀ place, ¬IsStray tokens place := by
  simp only [firstStray?, List.find?_eq_none, List.mem_range, decide_eq_true_eq]
  constructor
  · intro hnone place hstray
    exact hnone place hstray.lt_length hstray
  · intro hnone place _
    exact hnone place

theorem firstStray?_eq_some_iff (tokens : List Text) (place : Nat) :
    firstStray? tokens = some place ↔
      IsStray tokens place ∧ ∀ earlier < place, ¬IsStray tokens earlier := by
  simp only [firstStray?, List.find?_range_eq_some, decide_eq_true_eq, List.mem_range,
    Bool.not_eq_true', decide_eq_false_iff_not]
  constructor
  · rintro ⟨hstray, -, hearlier⟩
    exact ⟨hstray, hearlier⟩
  · rintro ⟨hstray, hearlier⟩
    exact ⟨hstray, hstray.lt_length, hearlier⟩

/-- Without a stray closing the reader takes in all tokens, and as many lists are open
then as there are more openings than closings. -/
theorem exists_advance_of_not_isStray {tokens : List Text}
    (hstray : ∀ place, ¬IsStray tokens place) :
    ∃ last, OpenLists.empty.advance (tokens.map Event.ofToken) = some last ∧
      last.depth + tokens.count [')'] = tokens.count ['('] := by
  cases hadvance : OpenLists.empty.advance (tokens.map Event.ofToken) with
  | some last =>
      have hdepth := OpenLists.depth_advance hadvance
      rw [Event.count_opening_map_ofToken, Event.count_closing_map_ofToken] at hdepth
      refine ⟨last, rfl, ?_⟩
      simpa [OpenLists.empty, OpenLists.depth] using hdepth
  | none =>
      -- The closing that stopped the run would be stray.
      obtain ⟨taken, rest, last, hevents, htaken, houter⟩ :=
        OpenLists.exists_of_advance_eq_none hadvance
      obtain ⟨before, after, rfl, hbefore, hafter⟩ := List.map_eq_append_iff.1 hevents
      obtain ⟨token, after, rfl, htoken, -⟩ := List.map_eq_cons_iff.1 hafter
      have hdepth := OpenLists.depth_advance htaken
      rw [← hbefore, Event.count_opening_map_ofToken, Event.count_closing_map_ofToken,
        (OpenLists.depth_eq_zero_iff last).2 houter] at hdepth
      refine absurd ⟨?_, ?_⟩ (hstray before.length)
      · simpa using (Event.ofToken_eq_closing_iff token).1 htoken
      · simpa [OpenLists.empty, OpenLists.depth] using hdepth.symm

example : firstStray? [['('], ['a'], [')'], [')'], ['(']] = some 3 := by decide

/-- At the first stray closing the strict mode fails, and the lenient mode gives what the
strict mode gives for the tokens before it. -/
theorem readTokens_of_firstStray? {tokens : List Text} {place : Nat}
    (hfirst : firstStray? tokens = some place) :
    readTokens .strict tokens = .error .unexpectedClose ∧
      ∃ forest, readTokens .strict (tokens.take place) = .ok forest ∧
        readTokens .lenient tokens = .ok forest := by
  obtain ⟨hstray, hearlier⟩ := (firstStray?_eq_some_iff tokens place).1 hfirst
  have hbefore : ∀ earlier, ¬IsStray (tokens.take place) earlier := by
    intro earlier htaken
    have hlt : earlier < place := by
      have hlength := htaken.lt_length
      rw [List.length_take] at hlength
      omega
    exact hearlier earlier hlt ((isStray_take_iff tokens hlt).1 htaken)
  obtain ⟨last, hadvance, hdepth⟩ := exists_advance_of_not_isStray hbefore
  have houter : last.outer = [] := by
    have hequal := hstray.2
    rw [← OpenLists.depth_eq_zero_iff]
    omega
  have hevents : tokens.map Event.ofToken = (tokens.take place).map Event.ofToken ++
      .closing :: (tokens.drop (place + 1)).map Event.ofToken := by
    obtain ⟨hlt, hclose⟩ := List.getElem?_eq_some_iff.1 hstray.1
    calc
      tokens.map Event.ofToken =
          (tokens.take place ++ tokens.drop place).map Event.ofToken := by
        rw [List.take_append_drop]
      _ = (tokens.take place).map Event.ofToken ++
          .closing :: (tokens.drop (place + 1)).map Event.ofToken := by
        rw [List.drop_eq_getElem_cons hlt, hclose, List.map_append, List.map_cons]
        rfl
  have hforest := OpenLists.finish_of_outer_eq_nil houter
  refine ⟨?_, last.innermost.reverse, ?_, ?_⟩
  · rw [readTokens, readEvents, hevents, OpenLists.read_append .strict hadvance,
      OpenLists.read_strict_of_stray houter]
  · rw [← hforest]
    exact OpenLists.read_of_advance .strict hadvance
  · rw [readTokens, readEvents, hevents, OpenLists.read_append .lenient hadvance,
      OpenLists.read_lenient_of_stray houter, hforest]

/-- Without a stray closing either mode fails exactly when there are more openings than
closings, and the modes agree. -/
theorem readTokens_of_firstStray?_eq_none {tokens : List Text}
    (hfirst : firstStray? tokens = none) :
    readTokens .lenient tokens = readTokens .strict tokens ∧
      if tokens.count [')'] < tokens.count ['('] then
        readTokens .strict tokens = .error .unterminated
      else
        ∃ forest, readTokens .strict tokens = .ok forest := by
  obtain ⟨last, hadvance, hdepth⟩ :=
    exists_advance_of_not_isStray ((firstStray?_eq_none_iff tokens).1 hfirst)
  have hread : ∀ mode, readTokens mode tokens = last.finish := fun mode =>
    OpenLists.read_of_advance mode hadvance
  refine ⟨by rw [hread, hread], ?_⟩
  rw [hread]
  by_cases houter : last.outer = []
  · have hzero := (OpenLists.depth_eq_zero_iff last).2 houter
    rw [if_neg (by omega)]
    exact ⟨_, OpenLists.finish_of_outer_eq_nil houter⟩
  · have hpos : last.depth ≠ 0 := mt (OpenLists.depth_eq_zero_iff last).1 houter
    rw [if_pos (by omega)]
    exact OpenLists.finish_of_outer_ne_nil houter

/-- Tokens that the strict mode accepts are read alike in the lenient mode. -/
theorem readTokens_lenient_of_strict {tokens : List Text} {forest : List Node}
    (hstrict : readTokens .strict tokens = .ok forest) :
    readTokens .lenient tokens = .ok forest := by
  cases hfirst : firstStray? tokens with
  | some place =>
      rw [(readTokens_of_firstStray? hfirst).1] at hstrict
      contradiction
  | none => exact (readTokens_of_firstStray?_eq_none hfirst).1.trans hstrict

/-- The outcome of reading any tokens in either mode.  The first stray closing decides it:
the strict mode fails there, whatever follows, and the lenient mode gives what the strict
mode gives for the tokens before it.  If there is none, the modes agree, and they fail
exactly when there are more openings than closings. -/
theorem readTokens_outcome (tokens : List Text) :
    readTokens .lenient tokens ≠ .error .unexpectedClose ∧
      match firstStray? tokens with
      | some place =>
          readTokens .strict tokens = .error .unexpectedClose ∧
            ∃ forest, readTokens .strict (tokens.take place) = .ok forest ∧
              readTokens .lenient tokens = .ok forest
      | none =>
          readTokens .lenient tokens = readTokens .strict tokens ∧
            if tokens.count [')'] < tokens.count ['('] then
              readTokens .strict tokens = .error .unterminated
            else
              ∃ forest, readTokens .strict tokens = .ok forest := by
  cases hfirst : firstStray? tokens with
  | some place =>
      obtain ⟨-, forest, -, hlenient⟩ := readTokens_of_firstStray? hfirst
      exact ⟨by simp [hlenient], readTokens_of_firstStray? hfirst⟩
  | none =>
      have houtcome := readTokens_of_firstStray?_eq_none hfirst
      refine ⟨?_, houtcome⟩
      rw [houtcome.1]
      have hstrict := houtcome.2
      split at hstrict
      · simp [hstrict]
      · obtain ⟨forest, hforest⟩ := hstrict
        simp [hforest]

end Sexp
