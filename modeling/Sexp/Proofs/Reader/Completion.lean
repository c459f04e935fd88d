import Sexp.Proofs.Reader.Outcome

/-!
# What more tokens can mend

Of the two ways in which tokens can be ill formed, one can be mended by what follows and
the other cannot.  Where lists are open at the end, as many closing parentheses as there
are open lists complete the tokens, and no smaller number does; one more is stray.  A
stray closing stays the first one, whatever follows it.
-/

namespace Sexp

namespace OpenLists

/-- Reading fails for an open list exactly when it comes to the end of the events with a
list still open, in either mode. -/
theorem read_eq_unterminated_iff (mode : Mode) (state : OpenLists) (events : List Event) :
    state.read mode events = .error .unterminated ↔
      ∃ last, state.advance events = some last ∧ last.outer ≠ [] := by
  cases hadvance : state.advance events with
  | some last =>
      rw [read_of_advance mode hadvance]
      by_cases houter : last.outer = []
      · simp [finish_of_outer_eq_nil houter, houter]
      · simp [finish_of_outer_ne_nil houter, houter]
  | none =>
      obtain ⟨taken, rest, last, rfl, htaken, houter⟩ := exists_of_advance_eq_none hadvance
      rw [read_append mode htaken]
      cases mode with
      | strict => simp [read_strict_of_stray houter]
      | lenient => simp [read_lenient_of_stray houter, finish_of_outer_eq_nil houter]

/-- The strict mode fails at a stray closing exactly when the run does not come to the end
of the events. -/
theorem read_strict_eq_unexpectedClose_iff (state : OpenLists) (events : List Event) :
    state.read .strict events = .error .unexpectedClose ↔ state.advance events = none := by
  cases hadvance : state.advance events with
  | some last =>
      rw [read_of_advance .strict hadvance]
      by_cases houter : last.outer = []
      · simp [finish_of_outer_eq_nil houter]
      · simp [finish_of_outer_ne_nil houter]
  | none =>
      obtain ⟨taken, rest, last, rfl, htaken, houter⟩ := exists_of_advance_eq_none hadvance
      rw [read_append .strict htaken, read_strict_of_stray houter]
      simp

/-- A run that has met a stray closing has met it before whatever else follows. -/
theorem advance_append_eq_none {state : OpenLists} {events : List Event}
    (hadvance : state.advance events = none) (rest : List Event) :
    state.advance (events ++ rest) = none := by
  rw [advance_append, hadvance, Option.bind_none]

/-- After a stray closing the lenient mode gives the same trees, whatever follows. -/
theorem exists_read_lenient_append {state : OpenLists} {events : List Event}
    (hadvance : state.advance events = none) :
    ∃ forest, ∀ rest, state.read .lenient (events ++ rest) = .ok forest := by
  obtain ⟨taken, dropped, last, rfl, htaken, houter⟩ := exists_of_advance_eq_none hadvance
  refine ⟨last.innermost.reverse, fun rest => ?_⟩
  rw [List.append_assoc, read_append .lenient htaken, List.cons_append,
    read_lenient_of_stray houter, finish_of_outer_eq_nil houter]

/-- Closings are taken in as long as there are open lists, and close one list each. -/
theorem exists_advance_closings {state : OpenLists} {count : Nat}
    (hcount : count ≤ state.depth) :
    ∃ last, state.advance (List.replicate count .closing) = some last ∧
      last.depth + count = state.depth := by
  induction count generalizing state with
  | zero => exact ⟨state, rfl, rfl⟩
  | succ count ih =>
      obtain ⟨innermost, outer⟩ := state
      cases outer with
      | nil => contradiction
      | cons enclosing outer =>
          -- The first closing leaves a state with one open list fewer for the others.
          have hrest : count ≤ depth ⟨.list innermost.reverse :: enclosing, outer⟩ :=
            Nat.le_of_succ_le_succ hcount
          obtain ⟨last, hadvance, hdepth⟩ := ih hrest
          exact ⟨last, hadvance, congrArg Nat.succ hdepth⟩

/-- Closings that follow on a state: fewer than there are open lists leave a list open, as
many complete the trees, and after more of them one is stray. -/
theorem exists_read_closings (state : OpenLists) :
    ∃ forest, ∀ count,
      (count < state.depth →
        ∀ mode, state.read mode (List.replicate count .closing) = .error .unterminated) ∧
      (count = state.depth →
        ∀ mode, state.read mode (List.replicate count .closing) = .ok forest) ∧
      (state.depth < count →
        state.read .strict (List.replicate count .closing) = .error .unexpectedClose ∧
          state.read .lenient (List.replicate count .closing) = .ok forest) := by
  obtain ⟨complete, hcomplete, hzero⟩ := exists_advance_closings (Nat.le_refl state.depth)
  have houter : complete.outer = [] := (depth_eq_zero_iff complete).1 (by omega)
  have hforest := finish_of_outer_eq_nil houter
  refine ⟨complete.innermost.reverse, fun count => ⟨fun hlt mode => ?_, ?_, fun hgt => ?_⟩⟩
  · obtain ⟨last, hadvance, hdepth⟩ := exists_advance_closings (Nat.le_of_lt hlt)
    refine (read_eq_unterminated_iff mode state _).2 ⟨last, hadvance, fun hnil => ?_⟩
    have hclosed := (depth_eq_zero_iff last).2 hnil
    omega
  · rintro rfl mode
    rw [read_of_advance mode hcomplete, hforest]
  · -- As many as there are open lists complete the trees, and the next one is stray.
    obtain ⟨extra, rfl⟩ := Nat.exists_eq_add_of_lt hgt
    have hsplit : List.replicate (state.depth + extra + 1) Event.closing =
        List.replicate state.depth .closing ++ .closing :: List.replicate extra .closing := by
      rw [← List.replicate_succ, List.replicate_append_replicate, Nat.add_assoc]
    rw [hsplit, read_append .strict hcomplete, read_append .lenient hcomplete,
      read_strict_of_stray houter, read_lenient_of_stray houter, hforest]
    exact ⟨rfl, rfl⟩

end OpenLists

/-- Tokens with so many closing parentheses after them. -/
def withClosings (tokens : List Text) (count : Nat) : List Text :=
  tokens ++ List.replicate count [')']

theorem map_ofToken_withClosings (tokens : List Text) (count : Nat) :
    (withClosings tokens count).map Event.ofToken =
      tokens.map Event.ofToken ++ List.replicate count .closing := by
  rw [withClosings, List.map_append, List.map_replicate]
  rfl

/-- Tokens that end in an open list have more openings than closings.  As many closing
parentheses as are missing complete them in either mode; with fewer a list stays open, and
with more the strict mode fails at a stray closing, while the lenient mode gives the trees
of the completed tokens.  Tokens in which a closing is stray are beyond mending: whatever
follows, the strict mode fails in the same way, and the lenient mode gives the trees that
it gives without it. -/
theorem readTokens_continuation (tokens : List Text) :
    (∀ mode, readTokens mode tokens = .error .unterminated →
      ∃ missing, 0 < missing ∧ tokens.count ['('] = tokens.count [')'] + missing ∧
        ∃ forest, ∀ count,
          (count < missing →
            ∀ again, readTokens again (withClosings tokens count) = .error .unterminated) ∧
          (count = missing →
            ∀ again, readTokens again (withClosings tokens count) = .ok forest) ∧
          (missing < count →
            readTokens .strict (withClosings tokens count) = .error .unexpectedClose ∧
              readTokens .lenient (withClosings tokens count) = .ok forest)) ∧
      (readTokens .strict tokens = .error .unexpectedClose →
        ∃ forest, readTokens .lenient tokens = .ok forest ∧
          ∀ continuation,
            readTokens .strict (tokens ++ continuation) = .error .unexpectedClose ∧
              readTokens .lenient (tokens ++ continuation) = .ok forest) := by
  constructor
  · intro mode hopen
    obtain ⟨last, hadvance, houter⟩ := (OpenLists.read_eq_unterminated_iff mode _ _).1 hopen
    have hdepth := OpenLists.depth_advance hadvance
    rw [Event.count_opening_map_ofToken, Event.count_closing_map_ofToken] at hdepth
    have hpositive := mt (OpenLists.depth_eq_zero_iff last).1 houter
    have hempty : OpenLists.empty.depth = 0 := rfl
    obtain ⟨forest, hclosings⟩ := last.exists_read_closings
    have hread : ∀ again count, readTokens again (withClosings tokens count) =
        last.read again (List.replicate count .closing) := by
      intro again count
      rw [readTokens, readEvents, map_ofToken_withClosings, OpenLists.read_append again hadvance]
    refine ⟨last.depth, by omega, by omega, forest, fun count => ?_⟩
    simp only [hread]
    exact hclosings count
  · intro hstray
    have hadvance := (OpenLists.read_strict_eq_unexpectedClose_iff _ _).1 hstray
    obtain ⟨forest, hlenient⟩ := OpenLists.exists_read_lenient_append hadvance
    have halone := hlenient []
    rw [List.append_nil] at halone
    refine ⟨forest, halone, fun continuation => ?_⟩
    have hrest := OpenLists.advance_append_eq_none hadvance (continuation.map Event.ofToken)
    rw [readTokens, readTokens, List.map_append]
    exact ⟨(OpenLists.read_strict_eq_unexpectedClose_iff _ _).2 hrest, hlenient _⟩

/-- Two closings complete two open lists; an opening does not mend a stray closing. -/
theorem readTokens_continuation_nested :
    let opened : List Text := [['('], ['a'], ['('], ['b']]
    let stray : List Text := [['a'], [')'], ['(']]
    readTokens .lenient opened = .error .unterminated ∧
      readTokens .strict stray = .error .unexpectedClose ∧
      (∃ forest,
        readTokens .lenient (withClosings opened 1) = .error .unterminated ∧
          readTokens .strict (withClosings opened 2) = .ok forest ∧
          readTokens .strict (withClosings opened 5) = .error .unexpectedClose ∧
          readTokens .lenient (withClosings opened 5) = .ok forest) ∧
      readTokens .strict (stray ++ [['b'], [')']]) = .error .unexpectedClose ∧
      readTokens .lenient (stray ++ [['b'], [')']]) = readTokens .lenient stray := by
  intro opened stray
  have hopened : readTokens .lenient opened = .error .unterminated := rfl
  have hstray : readTokens .strict stray = .error .unexpectedClose := rfl
  obtain ⟨missing, -, hcount, forest, hclosings⟩ :=
    (readTokens_continuation opened).1 .lenient hopened
  obtain rfl : missing = 2 := by
    have hopenings : opened.count ['('] = 2 := by decide
    have hclosed : opened.count [')'] = 0 := by decide
    omega
  obtain ⟨alone, halone, hcontinuation⟩ := (readTokens_continuation stray).2 hstray
  obtain ⟨hstrict, hlenient⟩ := hcontinuation [['b'], [')']]
  refine ⟨hopened, hstray, ⟨forest, ?_, ?_, ?_⟩, hstrict, hlenient.trans halone.symm⟩
  · exact (hclosings 1).1 (by decide) .lenient
  · exact (hclosings 2).2.1 rfl .strict
  · exact (hclosings 5).2.2 (by decide)

end Sexp
