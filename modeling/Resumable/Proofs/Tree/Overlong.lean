import Resumable.Proofs.Doc.Width
import Resumable.Proofs.Tree.Reference

/-!
# Lines that are too long

A line of a printed tree that is longer than the width has nothing on it that could
be moved to another line: one atom or `()`, with parentheses and indentation.
-/

namespace Resumable.Tree

open Text (Spaced printedLines)

/-- Indentation, opening parentheses, one of the atoms or `()`, and closing parentheses. -/
def Bare (atoms : List String) (line : List Char) : Prop :=
  ∃ (indent opened closed : Nat) (word : String), (word ∈ atoms ∨ word = "()") ∧
    line = List.replicate indent ' ' ++ List.replicate opened '(' ++ word.toList ++
      List.replicate closed ')'

/-- A line is within the width or it cannot be broken. -/
def Tight (width : Int) (atoms : List String) (line : List Char) : Prop :=
  (line.length : Int) ≤ width ∨ Bare atoms line

/-- The blanks and parentheses of a line before its word. -/
def opening (indent opened : Nat) : List Char :=
  List.replicate indent ' ' ++ List.replicate opened '('

theorem opening_parenthesis (indent opened : Nat) :
    opening indent opened ++ "(".toList = opening indent (opened + 1) := by
  have hopen : "(".toList = ['('] := by decide
  rw [opening, opening, List.append_assoc, hopen, ← List.replicate_succ']

theorem length_opening (indent opened : Nat) : (opening indent opened).length = indent + opened := by
  simp [opening]

mutual

theorem newline_notMem_oneLine : (tree : Tree) → (∀ atom ∈ tree.leaves, '\n' ∉ atom.toList) →
    '\n' ∉ tree.oneLine.toList
  | .atom text, h => h text List.mem_cons_self
  | .list [], _ => by decide
  | .list (first :: others), h => by
    rw [leaves, leavesAll, List.forall_mem_append] at h
    simp only [oneLine, String.toList_append, List.mem_append, not_or]
    exact ⟨⟨by decide, newline_notMem_oneLine first h.1⟩, newline_notMem_oneLineAll others h.2⟩

theorem newline_notMem_oneLineAll : (trees : List Tree) →
    (∀ atom ∈ leavesAll trees, '\n' ∉ atom.toList) → '\n' ∉ (oneLineAll trees).toList
  | [], _ => by decide
  | tree :: trees, h => by
    rw [leavesAll, List.forall_mem_append] at h
    simp only [oneLineAll, String.toList_append, List.mem_append, not_or]
    exact ⟨⟨by decide, newline_notMem_oneLine tree h.1⟩, newline_notMem_oneLineAll trees h.2⟩

end

/-- A word with parentheses around it, on one line. -/
theorem tight_word {width : Int} {atoms : List String} {word : String}
    (hword : word ∈ atoms ∨ word = "()") (hnone : '\n' ∉ word.toList)
    (indent opened closed : Nat) :
    ∀ line ∈ printedLines (opening indent opened ++ word.toList ++ List.replicate closed ')'),
      Tight width atoms line := by
  rw [Text.printedLines_single (by simp [opening, hnone])]
  exact List.forall_mem_singleton.2 (.inr ⟨indent, opened, closed, word, hword, rfl⟩)

mutual

-- The line on which a tree starts has only indentation and parentheses before it, and
-- the line on which it ends has only the parentheses after it that close right away.
theorem tight_printAt (width : Int) {atoms : List String} : (tree : Tree) →
    (∀ atom ∈ tree.leaves, atom ∈ atoms ∧ '\n' ∉ atom.toList) →
    (below indent opened closing : Nat) →
    ∀ line ∈ printedLines (opening indent opened ++
      (tree.printAt width below (indent + opened) closing).toList ++ List.replicate closing ')'),
      Tight width atoms line
  | .atom text, h, _, indent, opened, closing =>
    have htext := h text List.mem_cons_self
    tight_word (.inl htext.1) htext.2 indent opened closing
  | .list [], _, _, indent, opened, closing =>
    tight_word (.inr rfl) (by decide) indent opened closing
  | .list (first :: others), h, below, indent, opened, closing => by
    rw [printAt]
    split
    next hfits =>
      have hnone := newline_notMem_oneLine _ fun atom hatom => (h atom hatom).2
      rw [Text.printedLines_single (by simp [opening, hnone])]
      refine List.forall_mem_singleton.2 (.inl ?_)
      rwa [List.length_append, List.length_append, length_opening, String.length_toList,
        List.length_replicate]
    next =>
      rw [leaves, leavesAll, List.forall_mem_append] at h
      have hfirst :=
        tight_printAt width first h.1 below indent (opened + 1) (closingBefore others closing)
      rw [← opening_parenthesis, ← Nat.add_assoc] at hfirst
      have hothers := tight_printLines width others h.2 (below + 2) closing _ hfirst
      simpa only [String.toList_append, List.append_assoc] using hothers

theorem tight_printLines (width : Int) {atoms : List String} : (trees : List Tree) →
    (∀ atom ∈ leavesAll trees, atom ∈ atoms ∧ '\n' ∉ atom.toList) →
    (indent closing : Nat) → (before : List Char) →
    (∀ line ∈ printedLines (before ++ List.replicate (closingBefore trees closing) ')'),
      Tight width atoms line) →
    ∀ line ∈ printedLines (before ++ (printLines width trees indent closing).toList ++
      List.replicate closing ')'), Tight width atoms line
  | [], _, _, closing, before, hbefore => by
    have hclose : ")".toList = [')'] := by decide
    rw [printLines, hclose, List.append_assoc]
    exact hbefore
  | tree :: trees, h, indent, closing, before, hbefore => by
    rw [leavesAll, List.forall_mem_append] at h
    have hbreak : "\n".toList = ['\n'] := by decide
    have htree := tight_printAt width tree h.1 indent indent 0 (closingBefore trees closing)
    have hlines := tight_printLines width trees h.2 indent closing
      (before ++ '\n' :: (opening indent 0 ++ (tree.printAt width indent indent
        (closingBefore trees closing)).toList))
    rw [List.append_assoc, List.cons_append, Text.printedLines_newline, List.forall_mem_append]
      at hlines
    have hafter := hlines ⟨by simpa [closingBefore] using hbefore, htree⟩
    simpa only [printLines, String.toList_append, String.toList_ofList, hbreak, opening,
      List.replicate_zero, List.append_nil, List.append_assoc, List.cons_append,
      List.nil_append] using hafter

end

theorem tight_render (tree : Tree) (h : ∀ atom ∈ tree.leaves, '\n' ∉ atom.toList) (width : Int) :
    ∀ line ∈ printedLines (tree.render width).toList, Tight width tree.leaves line := by
  have htight := tight_printAt width tree (fun atom hatom => ⟨hatom, h atom hatom⟩) 0 0 0 0
  rw [render, Doc.pretty, layout_toDoc]
  simpa [opening] using htight

/-- The width is honoured wherever a break was to be had. A line of a document has at
most `width` characters if a blank comes after something else on it. A line of a tree
that has more is one atom or `()` with its parentheses and its indentation. -/
theorem width_honoured (width : Int) :
    (∀ doc : Doc Empty, doc.Plain → ∃ page, doc.layout width = .ok page ∧
      ∀ line ∈ printedLines page.toList, Spaced line → (line.length : Int) ≤ width) ∧
    ∀ tree : Tree, (∀ atom ∈ tree.leaves, ' ' ∉ atom.toList ∧ '\n' ∉ atom.toList) →
      ∀ line ∈ printedLines (tree.render width).toList, width < line.length →
        Bare tree.leaves line := by
  refine ⟨fun doc hplain => ?_, fun tree hatoms line hline hlong => ?_⟩
  · refine ⟨doc.pretty width, Doc.layout_eq_pretty doc width, fun line hline hspaced => ?_⟩
    exact Doc.layout_honours hplain (Doc.layout_eq_pretty doc width) hline hspaced
  · have htight := tight_render tree (fun atom hatom => (hatoms atom hatom).2) width line hline
    exact htight.resolve_left (Int.not_le.2 hlong)

/-- On seven columns, the second group of the document starts on the line of the first
and is broken: `ab cdef` and `gh`. The tree has a line of twelve characters. -/
theorem width_honoured_seven :
    let doc : Doc Empty :=
      .append (.group (.append (.text "ab") (.append .line (.text "cd"))))
        (.group (.nest 2 (.append (.text "ef") (.append .line (.text "gh")))))
    let tree := Tree.list [.atom "ab", .list [.list [.atom "cdefgh"]], .list []]
    doc.Plain ∧
      (∃ page, doc.layout 7 = .ok page ∧
        ∀ line ∈ printedLines page.toList, Spaced line → (line.length : Int) ≤ 7) ∧
      (∀ atom ∈ tree.leaves, ' ' ∉ atom.toList ∧ '\n' ∉ atom.toList) ∧
      "  ((cdefgh))".toList ∈ printedLines (tree.render 7).toList ∧
      Bare tree.leaves "  ((cdefgh))".toList :=
  ⟨by simp [Doc.Plain], (width_honoured 7).1 _ (by simp [Doc.Plain]), by decide, by decide,
    (width_honoured 7).2 _ (by decide) _ (by decide) (by decide)⟩

end Resumable.Tree
