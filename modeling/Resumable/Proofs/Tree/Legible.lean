import Resumable.Proofs.Tree.Readable
import Resumable.Proofs.Tree.RoundTrip

/-!
# Reading any text, printing, and reading again

A text need not look like a print: it may have comments, brackets, apostrophes and blanks
of its own. If it has no backslash, the reader takes the characters of each symbol as they
stand. So whatever it gives back is a tree of atoms that are read as they are written, and
reading the print of that tree gives the tree again.
-/

namespace Resumable.Tree

/-! ## Legible forms -/

/-- A form whose symbols are all read as they are written. -/
inductive Form.Legible : Form → Prop where
  | symbol {text : String} (verbatim : Verbatim text.toList) : Legible (.symbol text)
  | literal (text : String) : Legible (.literal text)
  | group {items : List Form} (items_legible : ∀ item ∈ items, item.Legible) :
      Legible (.group items)
  | bracket {items : List Form} (items_legible : ∀ item ∈ items, item.Legible) :
      Legible (.bracket items)
  | quoted {item : Form} (item_legible : item.Legible) : Legible (.quoted item)

mutual

theorem Form.Legible.readable : (form : Form) → form.Legible → ∀ {tree : Tree},
    form.toTree = .ok tree → tree.Readable
  | .symbol text, .symbol hverbatim, _, h => by
    cases h
    exact readable_atom.2 hverbatim
  | .literal _, _, _, h => by
    cases h
  | .group items, .group hitems, _, h => by
    simp only [Form.toTree, bind_eq_ok, pure_eq_ok] at h
    obtain ⟨trees, htrees, rfl⟩ := h
    exact readable_list.2 (readable_of_treesOf items hitems htrees)
  | .bracket items, .bracket hitems, _, h => by
    simp only [Form.toTree, bind_eq_ok, pure_eq_ok] at h
    obtain ⟨trees, htrees, rfl⟩ := h
    have hinner : (Tree.list trees).Readable :=
      readable_list.2 (readable_of_treesOf items hitems htrees)
    exact readable_list.2 (List.forall_mem_singleton.2 hinner)
  | .quoted item, .quoted hitem, _, h => by
    simp only [Form.toTree, bind_eq_ok, pure_eq_ok] at h
    obtain ⟨tree, htree, rfl⟩ := h
    exact readable_list.2 (List.forall_mem_singleton.2 (Form.Legible.readable item hitem htree))

theorem readable_of_treesOf : (forms : List Form) → (∀ form ∈ forms, form.Legible) →
    ∀ {trees : List Tree}, treesOf forms = .ok trees → ∀ tree ∈ trees, tree.Readable
  | [], _, _, h => by
    cases h
    simp
  | form :: forms, hlegible, _, h => by
    simp only [treesOf, bind_eq_ok, pure_eq_ok] at h
    obtain ⟨tree, htree, trees, htrees, rfl⟩ := h
    obtain ⟨hform, hforms⟩ := List.forall_mem_cons.1 hlegible
    exact List.forall_mem_cons.2
      ⟨Form.Legible.readable form hform htree, readable_of_treesOf forms hforms htrees⟩

end

/-! ## Machines that have met no backslash -/

/-- The forms before a level are legible, whatever opened it. -/
def Level.Legible (level : Level) : Prop :=
  ∀ form ∈ level.before, form.Legible

/-- A symbol in the making is read as it is written, and nothing is being escaped. -/
def Mode.Legible : Mode → Prop
  | .between | .literal _ | .comment => True
  | .symbol read => Verbatim read.reverse
  | .symbolEscape _ | .literalEscape _ => False

namespace Machine

/-- All that the machine holds is legible. -/
structure Legible (machine : Machine) : Prop where
  mode : machine.mode.Legible
  forms : ∀ form ∈ machine.forms, form.Legible
  levels : ∀ level ∈ machine.levels, level.Legible

/-- The levels of apostrophes end with legible forms. -/
theorem endQuotes_legible {forms forms' : List Form} {levels levels' : List Level}
    (h : endQuotes forms levels = .ok (forms', levels'))
    (hforms : ∀ form ∈ forms, form.Legible) (hlevels : ∀ level ∈ levels, level.Legible) :
    (∀ form ∈ forms', form.Legible) ∧ ∀ level ∈ levels', level.Legible := by
  fun_induction endQuotes forms levels with
  | case1 forms position before levels hnone => cases h
  | case2 forms position before levels form others hquoted ih =>
    obtain ⟨hbefore, hlevels⟩ := List.forall_mem_cons.1 hlevels
    have hall : ∀ item ∈ form :: others, item.Legible := by
      rw [← hquoted]
      simpa using hforms
    obtain ⟨hform, hothers⟩ := List.forall_mem_cons.1 hall
    refine ih h (List.forall_mem_append.2 ⟨?_, hbefore⟩) hlevels
    intro item hitem
    rw [List.mem_reverse, List.mem_cons] at hitem
    rcases hitem with rfl | hitem
    · exact .quoted hform
    · exact hothers item hitem
  | case3 forms levels =>
    cases h
    exact ⟨hforms, hlevels⟩

namespace Legible

variable {machine machine' : Machine} {position : Nat} {c : Char} {rest : List Char}

theorem mode_of_eq (h : machine.Legible) {mode : Mode} (hmode : machine.mode = mode) :
    mode.Legible :=
  hmode ▸ h.mode

theorem with_mode (h : machine.Legible) {mode : Mode} (hmode : mode.Legible) :
    { machine with mode }.Legible :=
  ⟨hmode, h.forms, h.levels⟩

theorem add (h : machine.Legible) {form : Form} (hform : form.Legible) :
    (machine.add form).Legible :=
  ⟨trivial, List.forall_mem_cons.2 ⟨hform, h.forms⟩, h.levels⟩

theorem enter (h : machine.Legible) (opening : Opening) : (machine.enter opening).Legible :=
  ⟨trivial, by simp [Machine.enter], List.forall_mem_cons.2 ⟨h.forms, h.levels⟩⟩

/-- A symbol that ends is a legible form. -/
theorem end_symbol {read : List Char} (h : machine.Legible) (hmode : machine.mode = .symbol read) :
    (machine.add (.symbol (String.ofList read.reverse))).Legible := by
  refine h.add (.symbol ?_)
  rw [String.toList_ofList]
  exact h.mode_of_eq hmode

theorem close (hmachine : machine.Legible) (h : machine.close c rest = .ok machine') :
    machine'.Legible := by
  simp only [Machine.close, bind_eq_ok] at h
  obtain ⟨⟨forms, levels⟩, hquotes, h⟩ := h
  obtain ⟨hforms, hlevels⟩ := endQuotes_legible hquotes hmachine.forms hmachine.levels
  have hitems : ∀ form ∈ forms.reverse, form.Legible := by simpa using hforms
  split at h
  · rename_i forms before levels hends
    obtain ⟨rfl, rfl⟩ := Prod.mk.inj hends
    obtain ⟨hbefore, hlevels⟩ := List.forall_mem_cons.1 hlevels
    split at h
    · cases h
      exact ⟨trivial, List.forall_mem_cons.2 ⟨.group hitems, hbefore⟩, hlevels⟩
    · cases h
  · rename_i forms before levels hends
    obtain ⟨rfl, rfl⟩ := Prod.mk.inj hends
    obtain ⟨hbefore, hlevels⟩ := List.forall_mem_cons.1 hlevels
    split at h
    · cases h
      exact ⟨trivial, List.forall_mem_cons.2 ⟨.bracket hitems, hbefore⟩, hlevels⟩
    · cases h
  · cases h

theorem start (hmachine : machine.Legible) (hc : c ≠ '\\')
    (h : machine.start position c rest = .ok machine') : machine'.Legible := by
  unfold Machine.start at h
  split_ifs at h with hliteral hblank hopen hopen' hclose hquote hcomment
  · cases h
    exact hmachine.with_mode trivial
  · cases h
    exact hmachine.with_mode trivial
  · cases h
    exact hmachine.enter .parenthesis
  · cases h
    exact hmachine.enter .bracket
  · exact hmachine.close h
  · cases h
    exact hmachine.enter (.apostrophe position)
  · cases h
    exact hmachine.with_mode trivial
  · -- the first character of a symbol is none of the above
    cases h
    have hin : endsSymbol c = false := by simp_all [endsSymbol]
    exact hmachine.with_mode ⟨by simp, by simpa using hquote, .plain hin hc .nil⟩

/-- One character other than a backslash keeps the machine legible. -/
theorem step (hmachine : machine.Legible) (hc : c ≠ '\\')
    (h : machine.step position c rest = .ok machine') : machine'.Legible := by
  unfold Machine.step at h
  split at h
  · exact hmachine.start hc h
  · cases h
    refine hmachine.with_mode ?_
    split <;> trivial
  · rename_i read hmode
    split_ifs at h with hends
    · -- the symbol ends before the character
      exact (hmachine.end_symbol hmode).start hc h
    · cases h
      have hread : Verbatim read.reverse := hmachine.mode_of_eq hmode
      refine hmachine.with_mode ?_
      rw [Mode.Legible, List.reverse_cons]
      exact hread.append (.plain (by simpa using hends) hc .nil)
  · -- nothing is escaped where there are no backslashes
    rename_i hmode
    exact (hmachine.mode_of_eq hmode).elim
  · split_ifs at h with hends
    · cases h
      exact hmachine.add (.literal _)
    · cases h
      exact hmachine.with_mode trivial
  · rename_i hmode
    exact (hmachine.mode_of_eq hmode).elim

/-- Reading without backslashes keeps the machine legible. -/
theorem run {cs : List Char} (hmachine : machine.Legible) (hcs : '\\' ∉ cs)
    (h : machine.run position cs = .ok machine') : machine'.Legible := by
  induction cs generalizing machine position with
  | nil =>
    cases h
    exact hmachine
  | cons c cs ih =>
    simp only [Machine.run, bind_eq_ok] at h
    obtain ⟨next, hstep, hrun⟩ := h
    rw [List.mem_cons, not_or] at hcs
    exact ih (hmachine.step (Ne.symm hcs.1) hstep) hcs.2 hrun

theorem finishLevels {forms : List Form} (hmachine : machine.Legible)
    (h : machine.finishLevels = .ok forms) : ∀ form ∈ forms, form.Legible := by
  simp only [Machine.finishLevels, bind_eq_ok] at h
  obtain ⟨⟨found, levels⟩, hquotes, h⟩ := h
  obtain ⟨hfound, -⟩ := endQuotes_legible hquotes hmachine.forms hmachine.levels
  split at h
  · cases h
  · cases h
  · rename_i hends
    obtain ⟨rfl, rfl⟩ := Prod.mk.inj hends
    cases h
    simpa using hfound

theorem finish {forms : List Form} (hmachine : machine.Legible)
    (h : machine.finish = .ok forms) : ∀ form ∈ forms, form.Legible := by
  unfold Machine.finish at h
  split at h
  · exact hmachine.finishLevels h
  · exact hmachine.finishLevels h
  · rename_i hmode
    exact (hmachine.end_symbol hmode).finishLevels h
  all_goals cases h

end Legible

end Machine

/-! ## Reading -/

/-- Without backslashes, what is read has only atoms that are read as they are written. -/
theorem readable_of_read {text : String} {tree : Tree} (hplain : '\\' ∉ text.toList)
    (h : read text = .ok tree) : tree.Readable := by
  obtain ⟨form, hforms, htree⟩ := read_eq_ok.1 h
  simp only [readForms, bind_eq_ok] at hforms
  obtain ⟨machine, hrun, hfinish⟩ := hforms
  have hempty : ({} : Machine).Legible := ⟨trivial, by simp, by simp⟩
  have hform : form.Legible := (hempty.run hplain hrun).finish hfinish form List.mem_cons_self
  exact hform.readable form htree

/-- Reading normalizes: whatever comments, brackets, apostrophes and blanks a text without
backslashes has, the tree that is read from it is read again from its print at any width. -/
theorem read_render_of_read {text : String} {tree : Tree} (hplain : '\\' ∉ text.toList)
    (h : read text = .ok tree) (width : Int) : read (tree.render width) = .ok tree :=
  (read_render_iff_verbatim tree width).2 (readable_of_read hplain h)

/-- A comment between forms, a bracket that holds an apostrophe with two forms after it, and
an apostrophe inside a symbol. On four columns every list is broken. -/
theorem read_render_of_bracketed :
    '\\' ∉ "; a\n[f\t'(x'y 0 ()) ; b\n z]".toList ∧
      read "; a\n[f\t'(x'y 0 ()) ; b\n z]" =
        .ok (.list [.list [.atom "f", .list [.list [.atom "x'y", .atom "0", .list []]], .atom "z"]]) ∧
      read (render (.list [.list [.atom "f", .list [.list [.atom "x'y", .atom "0", .list []]],
        .atom "z"]]) 4) =
        .ok (.list [.list [.atom "f", .list [.list [.atom "x'y", .atom "0", .list []]], .atom "z"]]) := by
  have hplain : '\\' ∉ "; a\n[f\t'(x'y 0 ()) ; b\n z]".toList := by decide
  have hread : read "; a\n[f\t'(x'y 0 ()) ; b\n z]" =
      .ok (.list [.list [.atom "f", .list [.list [.atom "x'y", .atom "0", .list []]], .atom "z"]]) := by
    cbv
  exact ⟨hplain, hread, read_render_of_read hplain hread 4⟩

end Resumable.Tree
