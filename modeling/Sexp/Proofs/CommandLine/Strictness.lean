import Sexp.Proofs.CommandLine.Sequence
import Sexp.Proofs.Reader.Outcome

/-!
# Strict and lenient runs

An expression that is accepted strictly is shown alike in both modes.  So a strict run shows
what a lenient run shows, up to the first expression that the strict mode does not accept,
and there it is cut off after the heading, wherever the lenient run comes to its end.
-/

namespace Sexp.CommandLine

namespace Outcome

/-- A run prints the beginning of what another one prints.  If it succeeds it is the same,
and it fails if the other one does. -/
structure IsCutOf (cut full : Outcome) : Prop where
  prefix_stdout : cut.stdout <+: full.stdout
  eq_of_success : cut.exit = 0 → full = cut
  exit_of_failure : full.exit = 1 → cut.exit = 1

namespace IsCutOf

variable {cut full : Outcome}

theorem refl (outcome : Outcome) : outcome.IsCutOf outcome :=
  ⟨List.prefix_rfl, fun _ => rfl, id⟩

theorem prepend (hcut : cut.IsCutOf full) (text : Text) :
    (cut.prepend text).IsCutOf (full.prepend text) where
  prefix_stdout := (List.prefix_append_right_inj text).2 hcut.prefix_stdout
  eq_of_success := fun hexit => congrArg (Outcome.prepend text) (hcut.eq_of_success hexit)
  exit_of_failure := hcut.exit_of_failure

/-- A run that fails after a text is a cut of any run that prints this text first. -/
theorem of_beginning {text : Text} (hbegins : text <+: full.stdout) (message : Text) :
    IsCutOf ⟨1, text, message⟩ full where
  prefix_stdout := hbegins
  eq_of_success := nofun
  exit_of_failure := fun _ => rfl

end IsCutOf

end Outcome

/-- The heading of an expression is printed whether or not it can be read. -/
theorem heading_prefix_showAll (mode : Mode) (source : Text) (rest : List Text) :
    heading source <+: (showAll mode (source :: rest)).stdout := by
  rcases isWellFormed_or_error mode source with hsource | ⟨failure, hread⟩
  · obtain ⟨block, hblock⟩ := exists_showAll_cons hsource
    rw [hblock]
    exact (List.prefix_append _ _).trans (List.prefix_append _ _)
  · have hstops := showAll_cons_of_readSource_eq_error hread rest
    simp only [hstops, List.prefix_rfl]

/-- What the strict mode accepts is shown alike in both modes. -/
theorem trees_lenient_of_strict {source : Text} (hsource : IsWellFormed .strict source) :
    trees .lenient source = trees .strict source := by
  obtain ⟨nodes, hread⟩ := hsource
  have hlenient : readSource .lenient source = .ok nodes := readTokens_lenient_of_strict hread
  rw [trees, trees, hread, hlenient]

theorem showAll_isCutOf (expressions : List Text) :
    (showAll .strict expressions).IsCutOf (showAll .lenient expressions) := by
  induction expressions with
  | nil => exact .refl _
  | cons source rest ih =>
      rcases isWellFormed_or_error .strict source with hsource | ⟨failure, hread⟩
      · obtain ⟨text, htext⟩ := exists_trees hsource
        have hlenient := (trees_lenient_of_strict hsource).trans htext
        rw [showAll, showAll, htext, hlenient]
        exact ih.prepend _
      · -- The strict run ends here; how the lenient one goes on does not matter.
        rw [showAll_cons_of_readSource_eq_error hread]
        exact .of_beginning (heading_prefix_showAll .lenient source rest) _

theorem strictFlag_not_mem_expressionsOf (arguments : List Text) :
    strictFlag ∉ expressionsOf arguments := by
  simp [expressionsOf, List.mem_filter]

theorem expressionsOf_expressionsOf (arguments : List Text) :
    expressionsOf (expressionsOf arguments) = expressionsOf arguments :=
  expressionsOf_of_not_mem (strictFlag_not_mem_expressionsOf arguments)

theorem run_eq_of_mem {arguments : List Text} (hstrict : strictFlag ∈ arguments) :
    run arguments = run (strictFlag :: expressionsOf arguments) := by
  rw [run, run, expressionsOf_cons_strictFlag, expressionsOf_expressionsOf, modeOf, modeOf,
    if_pos hstrict, if_pos List.mem_cons_self]

theorem run_isCutOf {arguments : List Text} (hstrict : strictFlag ∈ arguments) :
    (run arguments).IsCutOf (run (expressionsOf arguments)) := by
  have hlenient := strictFlag_not_mem_expressionsOf arguments
  rw [run, run, expressionsOf_expressionsOf, modeOf, modeOf, if_pos hstrict, if_neg hlenient]
  cases expressionsOf arguments with
  | nil => exact .refl _
  | cons source rest => exact showAll_isCutOf (source :: rest)

/-- It makes no difference where among the arguments the strict mode is asked for, and how
often.  Without being asked for it a run on the same expressions prints all that the strict
one prints, and perhaps more; it is the same run if the strict one succeeds; and the strict
one fails if it fails. -/
theorem run_strict_cuts {arguments : List Text} (hstrict : strictFlag ∈ arguments) :
    (∀ arguments', strictFlag ∈ arguments' →
        expressionsOf arguments' = expressionsOf arguments → run arguments' = run arguments) ∧
      let strict := run arguments
      let lenient := run (expressionsOf arguments)
      strict.stdout <+: lenient.stdout ∧
        (strict.exit = 0 → lenient.stdout = strict.stdout ∧ lenient.stderr = strict.stderr ∧
          lenient.exit = strict.exit) ∧
        (lenient.exit = 1 → strict.exit = 1) := by
  have hcut := run_isCutOf hstrict
  refine ⟨fun arguments' hstrict' hsame => ?_, hcut.prefix_stdout, fun hexit => ?_,
    hcut.exit_of_failure⟩
  · rw [run_eq_of_mem hstrict', run_eq_of_mem hstrict, hsame]
  · rw [hcut.eq_of_success hexit]
    exact ⟨rfl, rfl, rfl⟩

/-- The stray closing stops the strict run at the first expression, the list that is not
closed the lenient run at the last one. -/
theorem run_strict_cuts_stray :
    let arguments : List Text := ["a)".toList, strictFlag, "b".toList, "(".toList]
    strictFlag ∈ arguments ∧
      run [strictFlag, "a)".toList, "b".toList, strictFlag, "(".toList] = run arguments ∧
      (run arguments).stdout = "=====\na)\n[\x22a\x22, \x22)\x22]\n".toList ∧
      (run arguments).stdout <+: (run (expressionsOf arguments)).stdout ∧
      (run (expressionsOf arguments)).exit = 1 ∧ (run arguments).exit = 1 := by
  intro arguments
  have hstrict : strictFlag ∈ arguments := by decide
  obtain ⟨hanywhere, hbegins, -, hfailure⟩ := run_strict_cuts hstrict
  have hlenient : (run (expressionsOf arguments)).exit = 1 := by decide +kernel
  have hstdout : (run arguments).stdout = "=====\na)\n[\x22a\x22, \x22)\x22]\n".toList := by
    decide +kernel
  exact ⟨hstrict, hanywhere _ (by decide) rfl, hstdout, hbegins, hlenient, hfailure hlenient⟩

end Sexp.CommandLine
