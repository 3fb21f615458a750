import Resumable.Proofs.Tree.Reading

/-!
# Ink

Blanks have no ink and every other character has some. Trees, forms and the
reading machine have ink too. Every layout of a tree has the ink of the tree,
and so has every form with that tree.
-/

namespace Resumable.Tree

/-! ## Ink -/

/-- The ink of a character. Brackets and apostrophes have more than they are
worth in a tree. -/
def ink (c : Char) : Nat :=
  if Text.isAsciiBlank c then 0
  else if c ∈ ['[', ']', '\''] then 3
  else 1

/-- The ink of some characters. -/
def inkOf (cs : List Char) : Nat :=
  (cs.map ink).sum

@[simp] theorem inkOf_nil : inkOf [] = 0 := rfl

@[simp] theorem inkOf_cons (c : Char) (cs : List Char) : inkOf (c :: cs) = ink c + inkOf cs := rfl

@[simp] theorem inkOf_append (cs ds : List Char) : inkOf (cs ++ ds) = inkOf cs + inkOf ds := by
  simp [inkOf]

@[simp] theorem inkOf_reverse (cs : List Char) : inkOf cs.reverse = inkOf cs := by
  simp [inkOf]

theorem ink_blank {c : Char} (h : Text.isAsciiBlank c = true) : ink c = 0 := by
  simp [ink, h]

theorem inkOf_blanks {cs : List Char} (h : ∀ c ∈ cs, Text.isAsciiBlank c = true) :
    inkOf cs = 0 := by
  induction cs with
  | nil => rfl
  | cons c cs ih =>
    rw [inkOf_cons, ink_blank (h c List.mem_cons_self),
      ih fun d hd => h d (List.mem_cons_of_mem _ hd)]

mutual

/-- The ink of a tree: that of its atoms and of its parentheses. -/
def treeInk : Tree → Nat
  | .atom text => inkOf text.toList
  | .list items => 2 + treesInk items

/-- The ink of some trees. -/
def treesInk : List Tree → Nat
  | [] => 0
  | tree :: trees => treeInk tree + treesInk trees

end

mutual

/-- The ink of a form is that of its tree; a string literal has none. -/
def Form.ink : Form → Nat
  | .symbol text => inkOf text.toList
  | .literal _ => 0
  | .group items => 2 + formsInk items
  | .bracket items => 4 + formsInk items
  | .quoted item => 2 + item.ink

/-- The ink of some forms. -/
def formsInk : List Form → Nat
  | [] => 0
  | form :: forms => form.ink + formsInk forms

end

@[simp] theorem formsInk_append (fs gs : List Form) :
    formsInk (fs ++ gs) = formsInk fs + formsInk gs := by
  induction fs with
  | nil => simp [formsInk]
  | cons f fs ih => simp [formsInk, ih, Nat.add_assoc]

@[simp] theorem formsInk_reverse (fs : List Form) : formsInk fs.reverse = formsInk fs := by
  induction fs with
  | nil => rfl
  | cons f fs ih => simp [formsInk, ih, Nat.add_comm]

mutual

theorem treeInk_of_toTree : (form : Form) → {tree : Tree} → form.toTree = .ok tree →
    treeInk tree = form.ink
  | .symbol text, _, h => by
    cases h
    rfl
  | .literal _, _, h => by cases h
  | .group items, _, h => by
    simp only [Form.toTree, bind_eq_ok, pure_eq_ok] at h
    obtain ⟨trees, htrees, rfl⟩ := h
    rw [treeInk, Form.ink, treesInk_of_treesOf items htrees]
  | .bracket items, _, h => by
    simp only [Form.toTree, bind_eq_ok, pure_eq_ok] at h
    obtain ⟨trees, htrees, rfl⟩ := h
    simp only [treeInk, treesInk, Form.ink, treesInk_of_treesOf items htrees]
    omega
  | .quoted item, _, h => by
    simp only [Form.toTree, bind_eq_ok, pure_eq_ok] at h
    obtain ⟨tree, htree, rfl⟩ := h
    simp only [treeInk, treesInk, Form.ink, treeInk_of_toTree item htree]
    omega

theorem treesInk_of_treesOf : (forms : List Form) → {trees : List Tree} →
    treesOf forms = .ok trees → treesInk trees = formsInk forms
  | [], _, h => by
    cases h
    rfl
  | form :: forms, _, h => by
    simp only [treesOf, bind_eq_ok, pure_eq_ok] at h
    obtain ⟨tree, htree, trees, htrees, rfl⟩ := h
    rw [treesInk, formsInk, treeInk_of_toTree form htree, treesInk_of_treesOf forms htrees]

end

mutual

/-- Every layout of a tree has the ink of the tree. -/
theorem inkOf_tree_laid : (tree : Tree) → ∀ {indent : Int} {flat : Bool} {s : String},
    Doc.Laid indent flat tree.toDoc s → inkOf s.toList = treeInk tree
  | .atom text, _, _, _, h => by
    rw [toDoc] at h
    cases h
    rfl
  | .list [], _, _, _, h => by
    rw [toDoc] at h
    cases h
    decide
  | .list (first :: others), _, _, _, h => by
    obtain ⟨flat', t, u, hs, hfirst, hothers⟩ := laid_list h
    have hopen : ink '(' = 1 := by decide
    rw [hs, inkOf_cons, inkOf_append, hopen, inkOf_tree_laid first hfirst,
      inkOf_elements_laid others hothers, treeInk, treesInk]
    omega

theorem inkOf_elements_laid : (trees : List Tree) → ∀ {indent : Int} {flat : Bool} {s : String},
    Doc.Laid indent flat (elementsDoc trees) s → inkOf s.toList = 1 + treesInk trees
  | [], _, _, _, h => by
    rw [elementsDoc] at h
    cases h
    decide
  | tree :: trees, _, _, _, h => by
    rw [elementsDoc] at h
    cases h with
    | append hline hboth =>
      cases hboth with
      | append htree htrees =>
        obtain ⟨-, hblanks⟩ := blanks_of_laid_line hline
        rw [String.toList_append, String.toList_append, inkOf_append, inkOf_append,
          inkOf_blanks hblanks, inkOf_tree_laid tree htree, inkOf_elements_laid trees htrees,
          treesInk]
        omega

end

/-! ## Ink in the machine -/

/-- The ink of what opened a level. -/
def Opening.ink : Opening → Nat
  | .parenthesis => 1
  | .bracket => 2
  | .apostrophe _ => 2

/-- The ink of some open levels. -/
def levelsInk (levels : List Level) : Nat :=
  (levels.map fun level => level.opening.ink + formsInk level.before).sum

@[simp] theorem levelsInk_cons (level : Level) (levels : List Level) :
    levelsInk (level :: levels) =
      level.opening.ink + formsInk level.before + levelsInk levels := rfl

/-- The ink of what the machine is in the midst of. -/
def Mode.ink : Mode → Nat
  | .symbol read => inkOf read
  | .symbolEscape read => inkOf read + 1
  | .between | .literal _ | .literalEscape _ | .comment => 0

/-- The ink of the forms and levels of a machine. -/
def Machine.settledInk (machine : Machine) : Nat :=
  formsInk machine.forms + levelsInk machine.levels

/-- The ink of a machine. -/
def Machine.ink (machine : Machine) : Nat :=
  machine.mode.ink + machine.settledInk

end Resumable.Tree
