import Resumable.Tree.Printer
import Resumable.Proofs.Doc.Fit

/-!
# A reference printer

`printAt` prints a tree by recursion on the tree alone. Whether a list is broken
depends on the column where it starts, on its length on one line and on the
number of parentheses that close right after it. What else is still to be printed
does not matter: it starts with a line break, or there is nothing left.
-/

namespace Resumable.Tree

open Doc (Item Cursor fits print)

mutual

/-- A tree on one line. -/
def oneLine : Tree → String
  | .atom text => text
  | .list [] => "()"
  | .list (first :: others) => "(" ++ first.oneLine ++ oneLineAll others

/-- The elements after the first on one line, and the parenthesis that closes the list. -/
def oneLineAll : List Tree → String
  | [] => ")"
  | tree :: trees => " " ++ tree.oneLine ++ oneLineAll trees

end

/-- A tree on one line that starts at a column, and `closing` parentheses after it, keep
to the width. -/
def EndsWithin (width : Int) (tree : Tree) (column closing : Nat) : Prop :=
  ((column + tree.oneLine.length + closing : Nat) : Int) ≤ width

instance (width : Int) (tree : Tree) (column closing : Nat) :
    Decidable (tree.EndsWithin width column closing) :=
  inferInstanceAs (Decidable (((column + tree.oneLine.length + closing : Nat) : Int) ≤ width))

/-- How many parentheses close right after an element, if `others` come after it in a
list that `closing` parentheses follow. -/
def closingBefore (others : List Tree) (closing : Nat) : Nat :=
  if others.isEmpty then closing + 1 else 0

mutual

/-- Print a tree that starts at a column and that `closing` parentheses follow. The
elements of a broken list are indented by two more than `indent`. -/
def printAt (width : Int) : Tree → (indent column closing : Nat) → String
  | .atom text, _, _, _ => text
  | .list [], _, _, _ => "()"
  | .list (first :: others), indent, column, closing =>
      if (Tree.list (first :: others)).EndsWithin width column closing then
        (Tree.list (first :: others)).oneLine
      else
        "(" ++ first.printAt width indent (column + 1) (closingBefore others closing) ++
          printLines width others (indent + 2) closing

/-- Print the elements after the first, each on a line of its own, and the parenthesis
that closes the list. -/
def printLines (width : Int) : List Tree → (indent closing : Nat) → String
  | [], _, _ => ")"
  | tree :: trees, indent, closing =>
      "\n" ++ String.ofList (List.replicate indent ' ') ++
        tree.printAt width indent indent (closingBefore trees closing) ++
        printLines width trees indent closing

end

/-! ## The document of a tree on one line -/

mutual

theorem oneLine_toDoc : (tree : Tree) → tree.toDoc.oneLine = tree.oneLine
  | .atom _ => rfl
  | .list [] => rfl
  | .list (first :: others) => by
    simp only [toDoc, Doc.oneLine, oneLine_toDoc first, oneLine_elementsDoc others, oneLine,
      String.append_assoc]

theorem oneLine_elementsDoc : (trees : List Tree) → (elementsDoc trees).oneLine = oneLineAll trees
  | [] => rfl
  | tree :: trees => by
    simp only [elementsDoc, Doc.oneLine, oneLine_toDoc tree, oneLine_elementsDoc trees, oneLineAll,
      String.append_assoc]

end

/-! ## What follows on the line -/

/-- What follows on the line is a number of closing parentheses: it fits exactly if
there is room for them. -/
def Closes (rest : List (Item Empty)) (closing : Nat) : Prop :=
  ∀ room, fits room rest = .ok (decide (closing ≤ room))

theorem closes_nil : Closes [] 0 :=
  fun _ => Doc.fits_nil

theorem Closes.elements {rest : List (Item Empty)} {closing : Nat} (h : Closes rest closing)
    (others : List Tree) :
    Closes (⟨false, elementsDoc others⟩ :: rest) (closingBefore others closing) := by
  intro room
  cases others with
  | nil =>
    have hlength : (")".length : Int) = 1 := rfl
    have hroom : (closing : Int) ≤ room - 1 ↔ ((closing + 1 : Nat) : Int) ≤ room := by omega
    rw [elementsDoc, Doc.fits_text, h, hlength]
    simp only [hroom]
    rfl
  | cons tree trees =>
    rw [elementsDoc, Doc.fits_append, Doc.fits_brokenLine]
    rfl

theorem Closes.nest {rest : List (Item Empty)} {doc : Doc Empty} {depth : Int} {closing : Nat}
    (h : Closes (⟨false, doc⟩ :: rest) closing) : Closes (⟨false, .nest depth doc⟩ :: rest) closing :=
  fun room => Doc.fits_nest.trans (h room)

/-- The fit test of a list counts its length on one line and the parentheses after it. -/
theorem Closes.fits_list {rest : List (Item Empty)} {closing : Nat} (h : Closes rest closing)
    {tree : Tree} {body : Doc Empty} (hbody : body.oneLine = tree.oneLine) (width : Int)
    (column : Nat) :
    fits (width - column) (⟨true, body⟩ :: rest) =
      .ok (decide (tree.EndsWithin width column closing)) := by
  have hroom : (closing : Int) ≤ width - column - tree.oneLine.length ↔
      tree.EndsWithin width column closing := by
    rw [EndsWithin]
    omega
  rw [Doc.fits_flat, h, hbody]
  simp only [hroom]

/-! ## Printing -/

mutual

theorem print_toDoc (width : Int) : (tree : Tree) → ∀ (indent : Nat) (cursor : Cursor)
    {rest : List (Item Empty)} {column closing : Nat}, cursor.column = column →
    Closes rest closing →
    ∃ column', print width tree.toDoc indent false rest cursor =
      .ok ⟨cursor.text ++ tree.printAt width indent column closing, column'⟩
  | .atom _, _, _, _, _, _, _, _ => ⟨_, rfl⟩
  | .list [], _, _, _, _, _, _, _ => ⟨_, rfl⟩
  | .list (first :: others), indent, cursor, rest, column, closing, hcolumn, hrest => by
    have hline := oneLine_toDoc (.list (first :: others))
    rw [toDoc, Doc.oneLine] at hline
    rw [toDoc, print, if_neg Bool.false_ne_true, hcolumn, hrest.fits_list hline, ok_bind, printAt]
    by_cases hfits : (Tree.list (first :: others)).EndsWithin width column closing
    · rw [decide_eq_true hfits, if_pos hfits, Doc.print_flat, hline]
      exact ⟨_, rfl⟩
    · rw [decide_eq_false hfits, if_neg hfits]
      have hopen : (cursor.write "(").column = (column + 1 : Nat) := by
        rw [Cursor.write, hcolumn]
        rfl
      obtain ⟨column₁, hfirst⟩ :=
        print_toDoc width first indent (cursor.write "(") hopen (hrest.elements others).nest
      obtain ⟨column₂, hothers⟩ := print_elementsDoc width others (indent + 2) ⟨_, column₁⟩ hrest
      refine ⟨column₂, ?_⟩
      rw [print, print, ok_bind, print, hfirst, ok_bind, print]
      rw [Nat.cast_add] at hothers
      refine hothers.trans ?_
      simp only [Cursor.write, String.append_assoc]

theorem print_elementsDoc (width : Int) : (trees : List Tree) → ∀ (indent : Nat) (cursor : Cursor)
    {rest : List (Item Empty)} {closing : Nat}, Closes rest closing →
    ∃ column', print width (elementsDoc trees) indent false rest cursor =
      .ok ⟨cursor.text ++ printLines width trees indent closing, column'⟩
  | [], _, _, _, _, _ => ⟨_, rfl⟩
  | tree :: trees, indent, cursor, rest, closing, hrest => by
    obtain ⟨column₁, htree⟩ :=
      print_toDoc width tree indent (cursor.newline indent) rfl (hrest.elements trees)
    obtain ⟨column₂, htrees⟩ := print_elementsDoc width trees indent ⟨_, column₁⟩ hrest
    refine ⟨column₂, ?_⟩
    rw [elementsDoc, print, print, if_neg Bool.false_ne_true, ok_bind, print, htree, ok_bind, htrees,
      printLines]
    simp only [Cursor.newline, Int.toNat_natCast, String.append_assoc]

end

theorem layout_toDoc (tree : Tree) (width : Int) :
    tree.toDoc.layout width = .ok (tree.printAt width 0 0 0) := by
  obtain ⟨column, hprint⟩ := print_toDoc width tree 0 {} rfl closes_nil
  rw [Nat.cast_zero, String.empty_append] at hprint
  rw [Doc.layout, hprint, ok_bind]
  rfl

/-- Fitting the document of a tree to a width is the same as printing the tree by
recursion, with a list on one line exactly if it ends in time, the parentheses that
close right after it included. -/
theorem render_eq_printAt (tree : Tree) (width : Int) :
    tree.render width = tree.printAt width 0 0 0 := by
  rw [render, Doc.pretty, layout_toDoc]

-- The inner list has ten columns with the parenthesis that closes the outer one.
example : (Tree.list [.atom "a", .atoms ["b", "c", "d"]]).printAt 10 0 0 0 = "(a\n  (b c d))" ∧
    (Tree.list [.atom "a", .atoms ["b", "c", "d"]]).printAt 9 0 0 0 = "(a\n  (b\n    c\n    d))" := by
  decide

end Resumable.Tree
