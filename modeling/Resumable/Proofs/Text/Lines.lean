import Mathlib

/-!
# Lines of a printed text

In a printed text only a line feed ends a line. Texts are put together from parts,
and so are their lines.
-/

namespace Resumable.Text

/-- The lines of a printed text, without their ends. -/
def printedLines (cs : List Char) : List (List Char) :=
  cs.splitOn '\n'

theorem printedLines_newline (cs ds : List Char) :
    printedLines (cs ++ '\n' :: ds) = printedLines cs ++ printedLines ds :=
  List.splitOnP_append_cons cs ds (beq_self_eq_true '\n')

theorem printedLines_single {cs : List Char} (h : '\n' ∉ cs) : printedLines cs = [cs] :=
  List.splitOnP_eq_singleton fun _ hc => beq_eq_false_iff_ne.2 fun heq => h (heq ▸ hc)

theorem printedLines_finished {finished : List (List Char)} (h : ∀ line ∈ finished, '\n' ∉ line)
    (cs : List Char) :
    printedLines (finished.flatMap (· ++ ['\n']) ++ cs) = finished ++ printedLines cs := by
  induction finished with
  | nil => rfl
  | cons line finished ih =>
    obtain ⟨hline, hfinished⟩ := List.forall_mem_cons.1 h
    rw [List.flatMap_cons, List.append_assoc, List.append_assoc, List.singleton_append,
      printedLines_newline, printedLines_single hline, ih hfinished, List.singleton_append,
      List.cons_append]

/-- There is one line more than there are line feeds. -/
theorem length_printedLines (cs : List Char) :
    (printedLines cs).length = cs.count '\n' + 1 := by
  induction cs with
  | nil => rfl
  | cons c cs ih =>
    by_cases hc : c = '\n'
    · subst hc
      rw [List.count_cons_self, ← ih]
      exact congrArg List.length (printedLines_newline [] cs)
    · rw [List.count_cons_of_ne hc, ← ih, printedLines, List.splitOn,
        List.splitOnP_cons_eq_if_modifyHead, if_neg (by simpa using hc), List.length_modifyHead]
      rfl

end Resumable.Text
