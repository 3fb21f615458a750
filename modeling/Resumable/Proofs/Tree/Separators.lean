import Resumable.Proofs.Text.Lines
import Resumable.Proofs.Tree.Reference

/-!
# Separators

Between two elements of a list there is a separator, which is printed as a blank or
as a line break. A wider page never breaks a separator that a narrower page leaves
alone. A list that does not stand inside another on one line starts at a column, and has
a number of parentheses after it, that do not depend on the width. So it is on one line
on every page that is wide enough for it.
-/

namespace Resumable.Tree

/-- A piece of a printed tree: a text that is always the same, or a separator that
starts a line with some indentation if it is broken. -/
inductive Piece where
  | word (text : String)
  | separator (indent : Nat)
  deriving Repr, DecidableEq

mutual

/-- The pieces of a tree, in the order in which they are printed. -/
def pieces : Tree → (indent : Nat) → List Piece
  | .atom text, _ => [.word text]
  | .list [], _ => [.word "()"]
  | .list (first :: others), indent =>
      .word "(" :: (first.pieces indent ++ elementPieces others (indent + 2))

/-- The pieces of the elements after the first and of the parenthesis that closes the list. -/
def elementPieces : List Tree → (indent : Nat) → List Piece
  | [], _ => [.word ")"]
  | tree :: trees, indent =>
      .separator indent :: (tree.pieces indent ++ elementPieces trees indent)

end

mutual

/-- The number of separators of a tree. -/
def separators : Tree → Nat
  | .atom _ => 0
  | .list [] => 0
  | .list (first :: others) => first.separators + elementSeparators others

/-- The number of separators among elements, the one before the first included. -/
def elementSeparators : List Tree → Nat
  | [] => 0
  | tree :: trees => tree.separators + elementSeparators trees + 1

end

/-- The line feeds that a piece brings along, broken or not. -/
def Piece.newlines : Piece → Nat
  | .word text => text.toList.count '\n'
  | .separator _ => 0

/-- A separator as it is printed. -/
def separatorText (indent : Nat) (isBroken : Bool) : String :=
  if isBroken then "\n" ++ String.ofList (List.replicate indent ' ') else " "

/-- The text of some pieces, with each separator broken or not as the list says that
has one entry a separator, in the order of printing. -/
inductive Joined : List Piece → (broken : List Bool) → String → Prop where
  | nil : Joined [] [] ""
  | word {pieces : List Piece} {broken : List Bool} {s : String} (text : String)
      (others : Joined pieces broken s) : Joined (.word text :: pieces) broken (text ++ s)
  | separator {pieces : List Piece} {broken : List Bool} {s : String} (indent : Nat)
      (isBroken : Bool) (others : Joined pieces broken s) :
      Joined (.separator indent :: pieces) (isBroken :: broken)
        (separatorText indent isBroken ++ s)

theorem head_separatorText (indent : Nat) (isBroken : Bool) (s : String) :
    (separatorText indent isBroken ++ s).toList.head? = some (if isBroken then '\n' else ' ') := by
  cases isBroken <;> simp [separatorText]

/-- The first character tells a line break from a blank. -/
theorem separatorText_append_inj {indent : Nat} {isBroken isBroken' : Bool} {s t : String}
    (h : separatorText indent isBroken ++ s = separatorText indent isBroken' ++ t) :
    isBroken = isBroken' ∧ s = t := by
  have hsame : isBroken = isBroken' := by
    have hhead := head_separatorText indent isBroken s
    rw [h, head_separatorText] at hhead
    revert hhead
    cases isBroken <;> cases isBroken' <;> decide
  subst hsame
  exact ⟨rfl, (String.append_right_inj _).1 h⟩

theorem count_newline_separatorText (indent : Nat) (isBroken : Bool) :
    (separatorText indent isBroken).toList.count '\n' = if isBroken then 1 else 0 := by
  cases isBroken <;> simp [separatorText, List.count_replicate]

namespace Joined

variable {pieces pieces' : List Piece} {broken broken' : List Bool} {s t : String}

theorem single (text : String) : Joined [.word text] [] text := by
  simpa using word text nil

theorem append (h : Joined pieces broken s) (h' : Joined pieces' broken' t) :
    Joined (pieces ++ pieces') (broken ++ broken') (s ++ t) := by
  induction h with
  | nil => simpa using h'
  | word text _ ih =>
    rw [String.append_assoc]
    exact word text ih
  | separator indent isBroken _ ih =>
    rw [String.append_assoc]
    exact separator indent isBroken ih

theorem length_eq (h : Joined pieces broken s) (h' : Joined pieces broken' t) :
    broken.length = broken'.length := by
  induction h generalizing broken' t with
  | nil =>
    cases h'
    rfl
  | word _ _ ih =>
    cases h' with
    | word _ others => exact ih others
  | separator _ _ _ ih =>
    cases h' with
    | separator _ _ others => exact congrArg (· + 1) (ih others)

/-- A text tells which of its separators are broken. -/
theorem eq_of_text_eq (h : Joined pieces broken s) (h' : Joined pieces broken' t) (hst : s = t) :
    broken = broken' := by
  induction h generalizing broken' t with
  | nil =>
    cases h'
    rfl
  | word text _ ih =>
    cases h' with
    | word _ others => exact ih others ((String.append_right_inj text).1 hst)
  | separator indent isBroken _ ih =>
    cases h' with
    | separator _ _ others =>
      obtain ⟨rfl, hrest⟩ := separatorText_append_inj hst
      rw [ih others hrest]

/-- The line feeds of a text are those of its words and of its broken separators. -/
theorem count_newline (h : Joined pieces broken s) :
    s.toList.count '\n' = (pieces.map Piece.newlines).sum + broken.count true := by
  induction h with
  | nil => rfl
  | word text _ ih =>
    rw [String.toList_append, List.count_append, ih, List.map_cons, List.sum_cons, Piece.newlines,
      Nat.add_assoc]
  | separator indent isBroken _ ih =>
    rw [String.toList_append, List.count_append, ih, count_newline_separatorText, List.map_cons,
      List.sum_cons, Piece.newlines, List.count_cons]
    cases isBroken with
    | false => simp
    | true =>
      simp
      omega

end Joined

/-! ## The separators that are broken at a width -/

mutual

/-- Which separators of a tree are broken, in the order of printing. -/
def broken (width : Int) : Tree → (indent column closing : Nat) → List Bool
  | .atom _, _, _, _ => []
  | .list [], _, _, _ => []
  | .list (first :: others), indent, column, closing =>
      if (Tree.list (first :: others)).EndsWithin width column closing then
        List.replicate (Tree.list (first :: others)).separators false
      else
        first.broken width indent (column + 1) (closingBefore others closing) ++
          elementsBroken width others (indent + 2) closing

/-- Which separators are broken among elements that start a line each. -/
def elementsBroken (width : Int) : List Tree → (indent closing : Nat) → List Bool
  | [], _, _ => []
  | tree :: trees, indent, closing =>
      true :: (tree.broken width indent indent (closingBefore trees closing) ++
        elementsBroken width trees indent closing)

end

mutual

theorem joined_oneLine : (tree : Tree) → (indent : Nat) →
    Joined (tree.pieces indent) (List.replicate tree.separators false) tree.oneLine
  | .atom text, _ => .single text
  | .list [], _ => .single "()"
  | .list (first :: others), indent => by
    rw [pieces, separators, oneLine, List.replicate_add, String.append_assoc]
    exact .word "(" ((joined_oneLine first indent).append (joined_oneLineAll others (indent + 2)))

theorem joined_oneLineAll : (trees : List Tree) → (indent : Nat) →
    Joined (elementPieces trees indent) (List.replicate (elementSeparators trees) false)
      (oneLineAll trees)
  | [], _ => .single ")"
  | tree :: trees, indent => by
    rw [elementPieces, elementSeparators, oneLineAll, List.replicate_succ, List.replicate_add,
      String.append_assoc]
    exact .separator indent false
      ((joined_oneLine tree indent).append (joined_oneLineAll trees indent))

end

mutual

theorem joined_printAt (width : Int) : (tree : Tree) → (indent column closing : Nat) →
    Joined (tree.pieces indent) (tree.broken width indent column closing)
      (tree.printAt width indent column closing)
  | .atom text, _, _, _ => .single text
  | .list [], _, _, _ => .single "()"
  | .list (first :: others), indent, column, closing => by
    rw [broken, printAt]
    split
    · exact joined_oneLine (.list (first :: others)) indent
    · rw [pieces, String.append_assoc]
      exact .word "(" ((joined_printAt width first indent _ _).append
        (joined_printLines width others (indent + 2) closing))

theorem joined_printLines (width : Int) : (trees : List Tree) → (indent closing : Nat) →
    Joined (elementPieces trees indent) (elementsBroken width trees indent closing)
      (printLines width trees indent closing)
  | [], _, _ => .single ")"
  | tree :: trees, indent, closing => by
    rw [elementPieces, elementsBroken, printLines, String.append_assoc]
    exact .separator indent true ((joined_printAt width tree indent _ _).append
      (joined_printLines width trees indent closing))

end

/-! ## Widening -/

/-- Every separator that is broken on the wide page is broken on the narrow one. -/
def BrokenWithin : (wide narrow : List Bool) → Prop :=
  List.Forall₂ fun wide narrow => wide = true → narrow = true

namespace BrokenWithin

theorem of_unbroken (narrow : List Bool) :
    BrokenWithin (List.replicate narrow.length false) narrow := by
  induction narrow with
  | nil => exact .nil
  | cons isBroken narrow ih => exact .cons (by simp) ih

theorem getElem? {wide narrow : List Bool} (h : BrokenWithin wide narrow) {n : Nat}
    (hn : wide[n]? = some true) : narrow[n]? = some true := by
  induction h generalizing n with
  | nil => simp at hn
  | cons himp _ ih =>
    cases n with
    | zero =>
      rw [List.getElem?_cons_zero, Option.some_inj] at hn ⊢
      exact himp hn
    | succ n =>
      rw [List.getElem?_cons_succ] at hn ⊢
      exact ih hn

theorem count_le {wide narrow : List Bool} (h : BrokenWithin wide narrow) :
    wide.count true ≤ narrow.count true := by
  induction h with
  | nil => exact le_rfl
  | @cons isBroken isBroken' _ _ himp _ ih =>
    cases isBroken with
    | false =>
      rw [List.count_cons_of_ne Bool.false_ne_true]
      exact ih.trans List.count_le_count_cons
    | true =>
      obtain rfl := himp rfl
      rw [List.count_cons_self, List.count_cons_self]
      exact Nat.succ_le_succ ih

end BrokenWithin

mutual

theorem broken_antitone {narrow wide : Int} (h : narrow ≤ wide) : (tree : Tree) →
    (indent column closing : Nat) →
    BrokenWithin (tree.broken wide indent column closing) (tree.broken narrow indent column closing)
  | .atom _, _, _, _ => .nil
  | .list [], _, _, _ => .nil
  | .list (first :: others), indent, column, closing => by
    by_cases hwide : (Tree.list (first :: others)).EndsWithin wide column closing
    · have hlength := (joined_oneLine (.list (first :: others)) indent).length_eq
        (joined_printAt narrow (.list (first :: others)) indent column closing)
      rw [List.length_replicate] at hlength
      rw [broken, if_pos hwide, hlength]
      exact .of_unbroken _
    · -- The column and the parentheses after the list are the same at both widths.
      have hnarrow : ¬ (Tree.list (first :: others)).EndsWithin narrow column closing :=
        fun hends => hwide (le_trans hends h)
      rw [broken, broken, if_neg hwide, if_neg hnarrow]
      exact List.rel_append (broken_antitone h first indent _ _)
        (elementsBroken_antitone h others (indent + 2) closing)

theorem elementsBroken_antitone {narrow wide : Int} (h : narrow ≤ wide) : (trees : List Tree) →
    (indent closing : Nat) →
    BrokenWithin (elementsBroken wide trees indent closing)
      (elementsBroken narrow trees indent closing)
  | [], _, _ => .nil
  | tree :: trees, indent, closing => by
    rw [elementsBroken, elementsBroken]
    exact .cons id (List.rel_append (broken_antitone h tree indent _ _)
      (elementsBroken_antitone h trees indent closing))

end

theorem joined_render (tree : Tree) (width : Int) :
    Joined (tree.pieces 0) (tree.broken width 0 0 0) (tree.render width) := by
  rw [render, Doc.pretty, layout_toDoc]
  exact joined_printAt width tree 0 0 0

/-- On a wider page no separator is broken that is not broken on a narrower one, and
there are no more lines. For each page exactly one list says which separators are
broken on it. -/
theorem broken_of_broken_wider (tree : Tree) {narrow wide : Int} (h : narrow ≤ wide) :
    ∃ onNarrow onWide : List Bool,
      (∀ broken, Joined (tree.pieces 0) broken (tree.render narrow) ↔ broken = onNarrow) ∧
      (∀ broken, Joined (tree.pieces 0) broken (tree.render wide) ↔ broken = onWide) ∧
      (∀ n : Nat, onWide[n]? = some true → onNarrow[n]? = some true) ∧
      (Text.printedLines (tree.render wide).toList).length ≤
        (Text.printedLines (tree.render narrow).toList).length := by
  have hnarrow := joined_render tree narrow
  have hwide := joined_render tree wide
  have hwithin := broken_antitone h tree 0 0 0
  refine ⟨tree.broken narrow 0 0 0, tree.broken wide 0 0 0, fun broken => ?_, fun broken => ?_,
    fun n => hwithin.getElem?, ?_⟩
  · exact ⟨fun hbroken => hbroken.eq_of_text_eq hnarrow rfl, fun heq => heq ▸ hnarrow⟩
  · exact ⟨fun hbroken => hbroken.eq_of_text_eq hwide rfl, fun heq => heq ▸ hwide⟩
  · rw [Text.length_printedLines, Text.length_printedLines, hwide.count_newline,
      hnarrow.count_newline]
    exact Nat.add_le_add_right (Nat.add_le_add_left hwithin.count_le _) 1

/-- `(a (b c d))` has eleven columns. On ten its first separator is broken, and the inner
list, with two columns before it and one parenthesis after it, just fits. -/
theorem broken_of_broken_wider_exact_fit :
    let tree := Tree.list [.atom "a", .atoms ["b", "c", "d"]]
    (10 : Int) ≤ 11 ∧ ∃ onNarrow onWide : List Bool,
      (∀ broken, Joined (tree.pieces 0) broken (tree.render 10) ↔ broken = onNarrow) ∧
      (∀ broken, Joined (tree.pieces 0) broken (tree.render 11) ↔ broken = onWide) ∧
      (∀ n : Nat, onWide[n]? = some true → onNarrow[n]? = some true) ∧
      (Text.printedLines (tree.render 11).toList).length ≤
        (Text.printedLines (tree.render 10).toList).length :=
  ⟨by decide, broken_of_broken_wider _ (by decide)⟩

end Resumable.Tree
