import Sexp.CommandLine
import Sexp.Proofs.Node.Json
import Sexp.Proofs.Node.RoundTrip

/-!
# Runs over several expressions

A run over two lists of expressions is a run over the first, which goes on with the second
unless it has failed.  It fails at the first expression that cannot be read, with the blocks
of all expressions before that one and the heading of it on the standard output.
-/

namespace Sexp.CommandLine

/-- An expression that can be read. -/
def IsWellFormed (mode : Mode) (source : Text) : Prop :=
  ∃ nodes, readSource mode source = .ok nodes

/-- The arguments that ask for some expressions in a mode. -/
def argumentsFor : Mode → List Text → List Text
  | .lenient, expressions => expressions
  | .strict, expressions => strictFlag :: expressions

namespace Outcome

/-- Goes on with a second run unless the first one has failed. -/
def andThen (first second : Outcome) : Outcome :=
  if first.exit = 0 then second.prepend first.stdout else first

theorem prepend_andThen (text : Text) (first second : Outcome) :
    (first.prepend text).andThen second = (first.andThen second).prepend text := by
  by_cases hexit : first.exit = 0
  · have hprepend : (first.prepend text).exit = 0 := hexit
    rw [andThen, andThen, if_pos hexit, if_pos hprepend]
    simp [prepend]
  · have hprepend : (first.prepend text).exit ≠ 0 := hexit
    rw [andThen, andThen, if_neg hexit, if_neg hprepend]

end Outcome

variable {mode : Mode} {source : Text}

/-- Whatever can be read can be shown. -/
theorem exists_trees (hsource : IsWellFormed mode source) :
    ∃ text, trees mode source = .ok text := by
  obtain ⟨nodes, hread⟩ := hsource
  have hpure := (Node.isPure_list_iff nodes).2 (Node.readable_of_readSource hread).1
  obtain ⟨value, hvalue, -, -⟩ := Node.exists_toJson hpure
  refine ⟨value.compact, ?_⟩
  rw [trees, hread]
  show (Node.list nodes).jsonText.mapError NotNode.message = _
  rw [Node.jsonText_of_toJson hvalue]
  rfl

theorem trees_of_readSource_eq_error {failure : ReadError}
    (hread : readSource mode source = .error failure) :
    trees mode source = .error failure.message := by
  rw [trees, hread]
  rfl

theorem exists_showAll_cons (hsource : IsWellFormed mode source) :
    ∃ block, ∀ rest, showAll mode (source :: rest) =
      (showAll mode rest).prepend (heading source ++ block) := by
  obtain ⟨text, htext⟩ := exists_trees hsource
  exact ⟨line text, fun rest => by rw [showAll, htext]⟩

theorem showAll_cons_of_readSource_eq_error {failure : ReadError}
    (hread : readSource mode source = .error failure) (rest : List Text) :
    showAll mode (source :: rest) =
      ⟨1, heading source, line ("error: ".toList ++ failure.message)⟩ := by
  rw [showAll, trees_of_readSource_eq_error hread]

theorem isWellFormed_or_error (mode : Mode) (source : Text) :
    IsWellFormed mode source ∨ ∃ failure, readSource mode source = .error failure := by
  cases hread : readSource mode source with
  | ok nodes => exact .inl ⟨nodes, hread⟩
  | error failure => exact .inr ⟨failure, rfl⟩

/-- More expressions are shown after the others, unless these have stopped the run. -/
theorem showAll_append (mode : Mode) (expressions more : List Text) :
    showAll mode (expressions ++ more) =
      (showAll mode expressions).andThen (showAll mode more) := by
  induction expressions with
  | nil => rfl
  | cons source rest ih =>
      rcases isWellFormed_or_error mode source with hsource | ⟨failure, hread⟩
      · obtain ⟨block, hblock⟩ := exists_showAll_cons hsource
        rw [List.cons_append, hblock, hblock, ih, Outcome.prepend_andThen]
      · rw [List.cons_append, showAll_cons_of_readSource_eq_error hread,
          showAll_cons_of_readSource_eq_error hread]
        rfl

theorem exit_showAll_of_isWellFormed {expressions : List Text}
    (hexpressions : ∀ source ∈ expressions, IsWellFormed mode source) :
    (showAll mode expressions).exit = 0 := by
  induction expressions with
  | nil => rfl
  | cons source rest ih =>
      obtain ⟨hsource, hrest⟩ := List.forall_mem_cons.1 hexpressions
      obtain ⟨block, hblock⟩ := exists_showAll_cons hsource
      rw [hblock]
      exact ih hrest

/-- Either all expressions of a list can be read, or there is a first that cannot. -/
theorem isWellFormed_or_split (mode : Mode) (expressions : List Text) :
    (∀ source ∈ expressions, IsWellFormed mode source) ∨
      ∃ before source rest failure, expressions = before ++ source :: rest ∧
        (∀ earlier ∈ before, IsWellFormed mode earlier) ∧
          readSource mode source = .error failure := by
  induction expressions with
  | nil => exact .inl (List.forall_mem_nil _)
  | cons source rest ih =>
      rcases isWellFormed_or_error mode source with hsource | ⟨failure, hread⟩
      · rcases ih with hrest | ⟨before, bad, after, failure, rfl, hbefore, hbad⟩
        · exact .inl (List.forall_mem_cons.2 ⟨hsource, hrest⟩)
        · exact .inr ⟨source :: before, bad, after, failure, rfl,
            List.forall_mem_cons.2 ⟨hsource, hbefore⟩, hbad⟩
      · exact .inr ⟨[], source, rest, failure, rfl, List.forall_mem_nil _, hread⟩

/-- At the first expression that cannot be read a run stops, and keeps what it has printed. -/
theorem showAll_split {before : List Text} {failure : ReadError}
    (hbefore : ∀ earlier ∈ before, IsWellFormed mode earlier)
    (hread : readSource mode source = .error failure) (rest : List Text) :
    showAll mode (before ++ source :: rest) =
      ⟨1, (showAll mode before).stdout ++ heading source,
        line ("error: ".toList ++ failure.message)⟩ := by
  rw [showAll_append, showAll_cons_of_readSource_eq_error hread, Outcome.andThen,
    if_pos (exit_showAll_of_isWellFormed hbefore)]
  rfl

theorem expressionsOf_cons_strictFlag (arguments : List Text) :
    expressionsOf (strictFlag :: arguments) = expressionsOf arguments :=
  List.filter_cons_of_neg (by simp)

theorem expressionsOf_of_not_mem {arguments : List Text} (hflag : strictFlag ∉ arguments) :
    expressionsOf arguments = arguments :=
  List.filter_eq_self.2 fun _ hargument =>
    decide_eq_true fun hsame => hflag (hsame ▸ hargument)

theorem run_argumentsFor (mode : Mode) {expressions : List Text} (hne : expressions ≠ [])
    (hflag : strictFlag ∉ expressions) :
    run (argumentsFor mode expressions) = showAll mode expressions := by
  have hsame := expressionsOf_of_not_mem hflag
  obtain ⟨source, rest, rfl⟩ := List.exists_cons_of_ne_nil hne
  cases mode with
  | lenient => rw [argumentsFor, run, hsame, modeOf, if_neg hflag]
  | strict =>
      rw [argumentsFor, run, expressionsOf_cons_strictFlag, hsame, modeOf,
        if_pos List.mem_cons_self]

/-- A run over some expressions and then over more: if it succeeds with the first, it prints
the output for these and then the output for the others, and has the error output and the
exit status for the others.  If it fails with the first, the others make no difference: the
output ends with the heading of the first expression that cannot be read, after all that is
printed for the expressions before it.  There is no third possibility. -/
theorem run_expressions_append (mode : Mode) {expressions more : List Text}
    (hne : expressions ≠ []) (hne' : more ≠ []) (hflag : strictFlag ∉ expressions)
    (hflag' : strictFlag ∉ more) :
    let first := run (argumentsFor mode expressions)
    let second := run (argumentsFor mode more)
    let whole := run (argumentsFor mode (expressions ++ more))
    (first.exit = 0 → whole.stdout = first.stdout ++ second.stdout ∧
        whole.stderr = second.stderr ∧ whole.exit = second.exit) ∧
      (first.exit = 1 → whole = first ∧
        ∃ before source rest failure, expressions = before ++ source :: rest ∧
          (∀ earlier ∈ before, IsWellFormed mode earlier) ∧
          readSource mode source = .error failure ∧
          whole.stdout = (showAll mode before).stdout ++ heading source ∧
          whole.stderr = line ("error: ".toList ++ failure.message)) ∧
      (first.exit = 0 ∨ first.exit = 1) := by
  intro first second whole
  have hfirst : first = showAll mode expressions := run_argumentsFor mode hne hflag
  have hsecond : second = showAll mode more := run_argumentsFor mode hne' hflag'
  have hwhole : whole = first.andThen second := by
    have hboth : strictFlag ∉ expressions ++ more := by simp [hflag, hflag']
    rw [hfirst, hsecond, ← showAll_append]
    exact run_argumentsFor mode (List.append_ne_nil_of_left_ne_nil hne more) hboth
  rcases isWellFormed_or_split mode expressions with
    hall | ⟨before, source, rest, failure, hsplit, hbefore, hread⟩
  · have hexit : first.exit = 0 := by rw [hfirst, exit_showAll_of_isWellFormed hall]
    rw [Outcome.andThen, if_pos hexit] at hwhole
    refine ⟨fun _ => ?_, fun hone => ?_, .inl hexit⟩
    · rw [hwhole]
      exact ⟨rfl, rfl, rfl⟩
    · rw [hexit] at hone
      contradiction
  · have hstop := showAll_split hbefore hread rest
    rw [← hsplit, ← hfirst] at hstop
    have hexit : first.exit = 1 := by rw [hstop]
    rw [Outcome.andThen, if_neg (by rw [hexit]; decide)] at hwhole
    refine ⟨fun hzero => ?_, fun _ => ⟨hwhole, before, source, rest, failure, hsplit, hbefore,
      hread, ?_, ?_⟩, .inr hexit⟩
    · rw [hexit] at hzero
      contradiction
    · rw [hwhole, hstop]
    · rw [hwhole, hstop]

/-- A run that succeeds goes on with the stray closing, and fails there; a run that fails at
the list that is not closed has shown the tokens of it but no trees, and shows nothing more. -/
theorem run_expressions_append_unclosed :
    let good : List Text := ["f".toList]
    let bad : List Text := ["f".toList, "(g".toList]
    let last : List Text := [")".toList]
    (run (argumentsFor .strict good)).exit = 0 ∧
      (run (argumentsFor .strict (good ++ last))).stdout =
        "=====\nf\n[\x22f\x22]\n[\x22f\x22]\n=====\n)\n[\x22)\x22]\n".toList ∧
      (run (argumentsFor .strict (good ++ last))).stderr = "error: unexpected )\n".toList ∧
      (run (argumentsFor .lenient bad)).exit = 1 ∧
      run (argumentsFor .lenient (bad ++ last)) =
        ⟨1, "=====\nf\n[\x22f\x22]\n[\x22f\x22]\n=====\n(g\n[\x22(\x22, \x22g\x22]\n".toList,
          "error: unterminated (: unexpected end of input, expected \x27)\x27\n".toList⟩ := by
  intro good bad last
  have hgood : run (argumentsFor .strict good) =
      ⟨0, "=====\nf\n[\x22f\x22]\n[\x22f\x22]\n".toList, []⟩ := by
    decide +kernel
  have hlast : run (argumentsFor .strict last) =
      ⟨1, "=====\n)\n[\x22)\x22]\n".toList, "error: unexpected )\n".toList⟩ := by
    decide +kernel
  have hbad : run (argumentsFor .lenient bad) =
      ⟨1, "=====\nf\n[\x22f\x22]\n[\x22f\x22]\n=====\n(g\n[\x22(\x22, \x22g\x22]\n".toList,
        "error: unterminated (: unexpected end of input, expected \x27)\x27\n".toList⟩ := by
    decide +kernel
  have hexit : (run (argumentsFor .strict good)).exit = 0 := by rw [hgood]
  have hexit' : (run (argumentsFor .lenient bad)).exit = 1 := by rw [hbad]
  have hsuccess := (@run_expressions_append .strict good last (by simp [good]) (by simp [last])
    (by decide) (by decide)).1 hexit
  have hfailure := (@run_expressions_append .lenient bad last (by simp [bad]) (by simp [last])
    (by decide) (by decide)).2.1 hexit'
  refine ⟨hexit, ?_, ?_, hexit', hfailure.1.trans hbad⟩
  · rw [hsuccess.1, hgood, hlast]
    decide
  · rw [hsuccess.2.1, hlast]

end Sexp.CommandLine
