import Resumable.Proofs.Tree.Ink

/-!
# The print of a tree, read back

A tree is read back from its print, at any width, exactly if each of its atoms
is read as itself.

For one direction, the machine never holds more ink than it has read. It holds
as much only if it has met nothing but parentheses and symbols that are read as
they are written: a string literal, a comment, a bracket, an apostrophe and a
dropped backslash each lose some. A print has the ink of its tree, so a print
that is read back has lost nothing.
-/

namespace Resumable.Tree

/-! ## Machines that have lost nothing -/

/-- A form of parentheses and symbols that are read as they are written. -/
inductive Form.Clean : Form → Prop where
  | symbol {text : String} (verbatim : Verbatim text.toList) : Clean (.symbol text)
  | group {items : List Form} (items_clean : ∀ item ∈ items, item.Clean) : Clean (.group items)

/-- A level that a parenthesis opened after clean forms. -/
structure Level.Clean (level : Level) : Prop where
  opening : level.opening = .parenthesis
  before : ∀ form ∈ level.before, form.Clean

/-- Nothing is in the midst of being lost. -/
def Mode.Clean : Mode → Prop
  | .between => True
  | .symbol read => Verbatim read.reverse
  | .symbolEscape read => read = [] ∨ Verbatim read.reverse
  | .literal _ | .literalEscape _ | .comment => False

namespace Machine

/-- Only clean forms have been read, and only clean levels are open. -/
structure Settled (machine : Machine) : Prop where
  forms : ∀ form ∈ machine.forms, form.Clean
  levels : ∀ level ∈ machine.levels, level.Clean

/-- Nothing has been lost. -/
structure Clean (machine : Machine) : Prop where
  mode : machine.mode.Clean
  settled : machine.Settled

/-- A machine that has received some ink: it holds no more, and if it holds all
of it, then it has kept clean what was clean. -/
structure Received (amount : Nat) (clean : Prop) (machine : Machine) : Prop where
  le : machine.ink ≤ amount
  keeps : clean → machine.ink = amount → machine.Clean

theorem Received.of_lt {amount : Nat} {clean : Prop} {machine : Machine}
    (h : machine.ink < amount) : Received amount clean machine :=
  ⟨h.le, fun _ heq => absurd heq h.ne⟩

/-- A machine that holds all the ink it has received, if it keeps clean what was. -/
theorem Received.of_eq {amount : Nat} {clean : Prop} {machine : Machine}
    (h : machine.ink = amount) (hclean : clean → machine.Clean) : Received amount clean machine :=
  ⟨h.le, fun hbefore _ => hclean hbefore⟩

theorem Received.of_imp {amount amount' : Nat} {clean clean' : Prop} {machine : Machine}
    (h : Received amount clean machine) (hamount : amount = amount') (hclean : clean' → clean) :
    Received amount' clean' machine :=
  ⟨hamount ▸ h.le, fun hbefore heq => h.keeps (hclean hbefore) (heq.trans hamount.symm)⟩

theorem Settled.add {machine : Machine} (h : machine.Settled) {form : Form} (hform : form.Clean) :
    (machine.add form).Settled :=
  ⟨List.forall_mem_cons.2 ⟨hform, h.forms⟩, h.levels⟩

theorem settledInk_add (machine : Machine) (form : Form) :
    (machine.add form).settledInk = form.ink + machine.settledInk := by
  simp only [settledInk, add, formsInk]
  omega

theorem ink_enter (machine : Machine) (opening : Opening) :
    (machine.enter opening).ink = opening.ink + machine.settledInk := by
  simp only [ink, enter, settledInk, Mode.ink, formsInk, levelsInk_cons]
  omega

theorem Settled.enter {machine : Machine} (h : machine.Settled) :
    (machine.enter .parenthesis).Clean where
  mode := trivial
  settled :=
    ⟨by simp [Machine.enter], List.forall_mem_cons.2 ⟨⟨rfl, h.forms⟩, h.levels⟩⟩

/-! ## Closing -/

/-- The end of an apostrophe's level adds no ink. -/
theorem endQuotes_ink {forms forms' : List Form} {levels levels' : List Level}
    (h : endQuotes forms levels = .ok (forms', levels')) :
    formsInk forms' + levelsInk levels' ≤ formsInk forms + levelsInk levels := by
  fun_induction endQuotes forms levels with
  | case1 forms position before levels hforms => cases h
  | case2 forms position before levels form others hforms ih =>
    have hink : formsInk forms = form.ink + formsInk others := by
      rw [← formsInk_reverse, hforms, formsInk]
    have := ih h
    simp only [formsInk_append, formsInk_reverse, formsInk, Form.ink, levelsInk_cons, Opening.ink,
      hink] at this ⊢
    omega
  | case3 forms levels =>
    cases h
    exact le_rfl

/-- Where only parentheses are open, no apostrophe's level ends. -/
theorem endQuotes_of_clean {levels : List Level} (h : ∀ level ∈ levels, level.Clean)
    (forms : List Form) : endQuotes forms levels = .ok (forms, levels) := by
  cases levels with
  | nil => rfl
  | cons level levels =>
    obtain ⟨opening, before⟩ := level
    obtain ⟨rfl, -⟩ := h ⟨opening, before⟩ List.mem_cons_self
    rfl

theorem close_received {machine machine' : Machine} {closing : Char} {rest : List Char}
    (h : machine.close closing rest = .ok machine') :
    Received (machine.settledInk + Tree.ink closing) machine.Settled machine' := by
  simp only [close, bind_eq_ok] at h
  obtain ⟨⟨forms, levels⟩, hquotes, h⟩ := h
  have hink := endQuotes_ink hquotes
  split at h
  · -- a group ends
    rename_i forms before levels hends
    obtain ⟨rfl, rfl⟩ := Prod.mk.inj hends
    split at h
    · rename_i hclosing
      cases h
      subst hclosing
      have hclose : Tree.ink ')' = 1 := by decide
      simp only [levelsInk_cons, Opening.ink] at hink
      refine ⟨?_, fun hsettled _ => ?_⟩
      · simp only [ink, settledInk, Mode.ink, formsInk, Form.ink, formsInk_reverse]
        omega
      · rw [endQuotes_of_clean hsettled.levels] at hquotes
        obtain ⟨hforms, hlevels⟩ := Prod.mk.inj (Except.ok.inj hquotes)
        have hall := hsettled.levels
        rw [hlevels, List.forall_mem_cons] at hall
        refine ⟨trivial, List.forall_mem_cons.2 ⟨.group ?_, hall.1.before⟩, hall.2⟩
        simpa [← hforms] using hsettled.forms
    · cases h
  · -- a bracket ends, which loses ink
    rename_i forms before levels hends
    obtain ⟨rfl, rfl⟩ := Prod.mk.inj hends
    split at h
    · rename_i hclosing
      cases h
      subst hclosing
      have hclose : Tree.ink ']' = 3 := by decide
      simp only [levelsInk_cons, Opening.ink] at hink
      apply Received.of_lt
      simp only [ink, settledInk, Mode.ink, formsInk, Form.ink, formsInk_reverse]
      omega
    · cases h
  · cases h

/-! ## One character -/

theorem Settled.with_mode {machine : Machine} (h : machine.Settled) {mode : Mode}
    (hmode : mode.Clean) : { machine with mode }.Clean :=
  ⟨hmode, h.forms, h.levels⟩

theorem start_received {machine machine' : Machine} {position : Nat} {c : Char} {rest : List Char}
    (h : machine.start position c rest = .ok machine') :
    Received (machine.settledInk + Tree.ink c) machine.Settled machine' := by
  unfold start at h
  split_ifs at h with hliteral hblank hopen hopen' hclose hquote hcomment hbackslash
  · -- a string literal begins, and its quote is lost
    cases h
    have hink : Tree.ink c = 1 := by rw [hliteral]; decide
    exact .of_lt (show 0 + machine.settledInk < _ by omega)
  · cases h
    rw [ink_blank hblank]
    exact .of_eq (Nat.zero_add _) fun hsettled => hsettled.with_mode trivial
  · cases h
    have hink : Tree.ink c = 1 := by rw [hopen]; decide
    refine .of_eq ?_ Settled.enter
    rw [ink_enter, Opening.ink]
    omega
  · cases h
    have hink : Tree.ink c = 3 := by rw [hopen']; decide
    refine .of_lt ?_
    rw [ink_enter, Opening.ink]
    omega
  · exact close_received h
  · cases h
    have hink : Tree.ink c = 3 := by rw [hquote]; decide
    refine .of_lt ?_
    rw [ink_enter, Opening.ink]
    omega
  · -- a comment begins, and its semicolon is lost
    cases h
    have hink : Tree.ink c = 1 := by rw [hcomment]; decide
    exact .of_lt (show 0 + machine.settledInk < _ by omega)
  · cases h
    have hink : Tree.ink c = 1 := by rw [hbackslash]; decide
    exact .of_eq (show 1 + machine.settledInk = _ by omega) fun hsettled =>
      hsettled.with_mode (.inl rfl)
  · cases h
    have hin : endsSymbol c = false := by simp_all [endsSymbol]
    refine .of_eq (Nat.add_comm _ _) fun hsettled => hsettled.with_mode ?_
    exact ⟨by simp, by simpa using hquote, .plain hin hbackslash .nil⟩

/-- One character is received. -/
theorem step_received {machine machine' : Machine} {position : Nat} {c : Char} {rest : List Char}
    (h : machine.step position c rest = .ok machine') :
    Received (machine.ink + Tree.ink c) machine.Clean machine' := by
  obtain ⟨mode, forms, levels⟩ := machine
  cases mode with
  | between =>
    refine (start_received h).of_imp ?_ Clean.settled
    rw [ink, Mode.ink, Nat.zero_add]
  | comment =>
    cases h
    refine ⟨?_, fun hclean _ => hclean.mode.elim⟩
    dsimp only [ink]
    split <;> simp [Mode.ink, settledInk]
  | symbol read =>
    simp only [step] at h
    split_ifs at h with hends hbackslash
    · -- the symbol ends before the character
      refine (start_received h).of_imp ?_ fun hclean => ?_
      · rw [settledInk_add, Form.ink, String.toList_ofList, inkOf_reverse]
        rfl
      · refine hclean.settled.add (.symbol ?_)
        rw [String.toList_ofList]
        exact hclean.mode
    · cases h
      have hink : Tree.ink c = 1 := by rw [hbackslash]; decide
      refine .of_eq ?_ fun hclean => hclean.settled.with_mode (.inr hclean.mode)
      simp only [ink, Mode.ink, settledInk]
      omega
    · cases h
      refine .of_eq ?_ fun hclean => hclean.settled.with_mode ?_
      · simp only [ink, Mode.ink, settledInk, inkOf_cons]
        omega
      · rw [Mode.Clean, List.reverse_cons]
        exact hclean.mode.append (.plain (by simpa using hends) hbackslash .nil)
  | symbolEscape read =>
    cases h
    by_cases hescape : c ∈ symbolEscapes
    · -- the backslash is dropped
      refine .of_lt ?_
      simp only [ink, Mode.ink, unescapeSymbol, hescape, if_true, settledInk, inkOf_append,
        inkOf_reverse, inkOf_cons, inkOf_nil]
      omega
    · have hbackslash : Tree.ink '\\' = 1 := by decide
      refine .of_eq ?_ fun hclean => hclean.settled.with_mode ?_
      · simp only [ink, Mode.ink, unescapeSymbol, hescape, if_false, settledInk, inkOf_append,
          inkOf_reverse, inkOf_cons, inkOf_nil]
        omega
      · have hkept : Continues ['\\', c] := .escaped hescape .nil
        simp only [Mode.Clean, unescapeSymbol, hescape, if_false, List.reverse_append,
          List.reverse_reverse]
        rcases hclean.mode with rfl | hread
        · exact ⟨by simp, by simp, hkept⟩
        · exact hread.append hkept
  | literal read =>
    simp only [step] at h
    split_ifs at h with hends hbackslash
    all_goals
      cases h
      exact ⟨by simp [ink, Mode.ink, settledInk, add, formsInk, Form.ink],
        fun hclean _ => hclean.mode.elim⟩
  | literalEscape read =>
    cases h
    exact ⟨by simp [ink, Mode.ink, settledInk], fun hclean _ => hclean.mode.elim⟩

/-! ## A whole text -/

/-- What has been received character by character. -/
theorem run_received {machine machine' : Machine} {position : Nat} {cs : List Char}
    (h : machine.run position cs = .ok machine') :
    Received (machine.ink + inkOf cs) machine.Clean machine' := by
  induction cs generalizing machine position with
  | nil =>
    cases h
    exact .of_eq rfl id
  | cons c cs ih =>
    simp only [run, bind_eq_ok] at h
    obtain ⟨next, hstep, hrun⟩ := h
    have hnext := step_received hstep
    have hlast := ih hrun
    have hnext_le := hnext.le
    have hlast_le := hlast.le
    rw [inkOf_cons]
    -- all ink is kept only if both the character and the rest keep theirs
    refine ⟨by omega, fun hclean heq => hlast.keeps (hnext.keeps hclean ?_) ?_⟩
    · omega
    · omega

theorem finishLevels_ink {machine : Machine} {forms : List Form}
    (h : machine.finishLevels = .ok forms) : formsInk forms ≤ machine.settledInk := by
  simp only [finishLevels, bind_eq_ok] at h
  obtain ⟨⟨forms', levels⟩, hquotes, h⟩ := h
  have hink := endQuotes_ink hquotes
  split at h
  · cases h
  · cases h
  · rename_i hends
    obtain ⟨rfl, rfl⟩ := Prod.mk.inj hends
    cases h
    rw [formsInk_reverse, settledInk]
    omega

theorem Settled.finishLevels {machine : Machine} (hsettled : machine.Settled) {forms : List Form}
    (h : machine.finishLevels = .ok forms) : ∀ form ∈ forms, form.Clean := by
  simp only [Machine.finishLevels, endQuotes_of_clean hsettled.levels, ok_bind] at h
  split at h
  · cases h
  · cases h
  · rename_i hends
    obtain ⟨rfl, rfl⟩ := Prod.mk.inj hends
    cases h
    simpa using hsettled.forms

theorem finish_ink {machine : Machine} {forms : List Form} (h : machine.finish = .ok forms) :
    formsInk forms ≤ machine.ink := by
  obtain ⟨mode, before, levels⟩ := machine
  cases mode with
  | between | comment => exact (finishLevels_ink h).trans (Nat.le_add_left _ _)
  | symbol read =>
    have hink := finishLevels_ink h
    rw [settledInk_add, Form.ink, String.toList_ofList, inkOf_reverse] at hink
    exact hink
  | symbolEscape | literal | literalEscape => cases h

theorem Clean.finish {machine : Machine} (hclean : machine.Clean) {forms : List Form}
    (h : machine.finish = .ok forms) : ∀ form ∈ forms, form.Clean := by
  obtain ⟨mode, before, levels⟩ := machine
  cases mode with
  | between => exact hclean.settled.finishLevels h
  | symbol read =>
    refine (hclean.settled.add (.symbol ?_)).finishLevels h
    rw [String.toList_ofList]
    exact hclean.mode
  | symbolEscape | literal | literalEscape => cases h
  | comment => exact hclean.mode.elim

end Machine

mutual

/-- The atoms of a clean form are read as they are written. -/
theorem Form.Clean.verbatim : (form : Form) → form.Clean → ∀ {tree : Tree}, form.toTree = .ok tree →
    ∀ text ∈ tree.leaves, Verbatim text.toList
  | .symbol text, .symbol hverbatim, _, h => by
    cases h
    simpa [leaves] using hverbatim
  | .group items, .group hitems, _, h => by
    simp only [Form.toTree, bind_eq_ok, pure_eq_ok] at h
    obtain ⟨trees, htrees, rfl⟩ := h
    exact verbatim_of_treesOf items hitems htrees

theorem verbatim_of_treesOf : (forms : List Form) → (∀ form ∈ forms, form.Clean) →
    ∀ {trees : List Tree}, treesOf forms = .ok trees →
    ∀ text ∈ leavesAll trees, Verbatim text.toList
  | [], _, _, h => by
    cases h
    simp [leavesAll]
  | form :: forms, hclean, _, h => by
    simp only [treesOf, bind_eq_ok, pure_eq_ok] at h
    obtain ⟨tree, htree, trees, htrees, rfl⟩ := h
    obtain ⟨hform, hforms⟩ := List.forall_mem_cons.1 hclean
    intro text htext
    rw [leavesAll, List.mem_append] at htext
    rcases htext with htext | htext
    · exact Form.Clean.verbatim form hform htree text htext
    · exact verbatim_of_treesOf forms hforms htrees text htext

end

/-- If a tree is read back from its print, its atoms are read as they are written. -/
theorem verbatim_of_read_render {tree : Tree} {width : Int}
    (h : read (tree.render width) = .ok tree) : ∀ text ∈ tree.leaves, Verbatim text.toList := by
  obtain ⟨form, hforms, htree⟩ := read_eq_ok.1 h
  simp only [readForms, bind_eq_ok] at hforms
  obtain ⟨machine, hrun, hfinish⟩ := hforms
  have hreceived := Machine.run_received hrun
  have hprint : inkOf (tree.render width).toList = form.ink := by
    rw [render, inkOf_tree_laid tree (Doc.pretty_laid _ width), treeInk_of_toTree form htree]
  have hle := hreceived.le
  have hheld := Machine.finish_ink hfinish
  have hempty : ({} : Machine).ink = 0 := rfl
  have hclean : machine.Clean := by
    refine hreceived.keeps ⟨trivial, by simp, by simp⟩ ?_
    rw [formsInk, formsInk] at hheld
    omega
  exact Form.Clean.verbatim form (hclean.finish hfinish form List.mem_cons_self) htree

/-! ## The round trip -/

/-- Printing and reading undo each other on the trees of verbatim atoms, and on no other tree. -/
theorem read_render_iff_verbatim (tree : Tree) (width : Int) :
    read (tree.render width) = .ok tree ↔ ∀ text ∈ tree.leaves, Verbatim text.toList :=
  ⟨verbatim_of_read_render, fun h => read_render_of_verbatim h width⟩

/-- The print of an atom is its text. -/
theorem render_atom (text : String) (width : Int) : (atom text).render width = text := by
  have hlaid := Doc.pretty_laid (atom text).toDoc width
  generalize hprint : (atom text).toDoc.pretty width = printed at hlaid
  rw [toDoc] at hlaid
  cases hlaid
  exact hprint

/-- An atom is read as itself exactly if it is verbatim. -/
theorem read_atom_iff_verbatim (text : String) :
    read text = .ok (.atom text) ↔ Verbatim text.toList := by
  have h := read_render_iff_verbatim (.atom text) defaultWidth
  rw [render_atom] at h
  simpa [leaves] using h

/-- A tree is read back from its print, whatever the width, exactly if each of its
atoms is read as itself. -/
theorem read_render_eq_ok_iff (tree : Tree) (width : Int) :
    read (tree.render width) = .ok tree ↔ ∀ text ∈ tree.leaves, read text = .ok (.atom text) := by
  rw [read_render_iff_verbatim]
  simp only [read_atom_iff_verbatim]

end Resumable.Tree
