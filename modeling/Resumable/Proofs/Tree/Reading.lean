import Resumable.Proofs.Doc.Laid
import Resumable.Tree.Printer
import Resumable.Tree.Reader

/-!
# Reading a printed tree

If every atom of a tree is a text that the reader keeps as it is, any legal
layout of the tree is read as that tree.
-/

namespace Resumable.Tree

/-! ## Symbols that are read as they are written -/

/-- Characters that a symbol may go on with, all of them kept. -/
inductive Continues : List Char → Prop where
  | nil : Continues []
  | plain {c : Char} {cs : List Char} (inside : endsSymbol c = false) (unescaped : c ≠ '\\')
      (rest : Continues cs) : Continues (c :: cs)
  | escaped {c : Char} {cs : List Char} (kept : c ∉ symbolEscapes) (rest : Continues cs) :
      Continues ('\\' :: c :: cs)

theorem Continues.append {cs ds : List Char} (h : Continues cs) (h' : Continues ds) :
    Continues (cs ++ ds) := by
  induction h with
  | nil => exact h'
  | plain hin hesc _ ih => exact .plain hin hesc ih
  | escaped hkept _ ih => exact .escaped hkept ih

/-- Characters that are read as a symbol of the same text. -/
structure Verbatim (cs : List Char) : Prop where
  nonempty : cs ≠ []
  unquoted : cs.head? ≠ some '\''
  continues : Continues cs

theorem Verbatim.append {cs ds : List Char} (h : Verbatim cs) (hds : Continues ds) :
    Verbatim (cs ++ ds) where
  nonempty := by simp [h.nonempty]
  unquoted := by
    rw [List.head?_append_of_ne_nil cs h.nonempty]
    exact h.unquoted
  continues := h.continues.append hds

/-- Nothing goes on a symbol before these characters. -/
def EndsHere (cs : List Char) : Prop :=
  ∀ c ∈ cs.head?, endsSymbol c = true

/-! ## Steps of the machine -/

namespace Machine

/-- The forms of a text when the machine has read the part before it. -/
def readOn (machine : Machine) (position : Nat) (cs : List Char) :
    Except ReadFault (List Form) := do
  (← machine.run position cs).finish

theorem readOn_cons {machine machine' : Machine} {position : Nat} {c : Char} {cs : List Char}
    (h : machine.step position c cs = .ok machine') :
    machine.readOn position (c :: cs) = machine'.readOn (position + 1) cs := by
  simp only [readOn, run, h, ok_bind]

theorem start_plain {machine : Machine} {position : Nat} {c : Char} {cs : List Char}
    (hin : endsSymbol c = false) (hesc : c ≠ '\\') (hquote : c ≠ '\'') :
    machine.start position c cs = .ok { machine with mode := .symbol [c] } := by
  simp only [endsSymbol, Bool.or_eq_false_iff, decide_eq_false_iff_not, List.mem_cons,
    not_or] at hin
  obtain ⟨⟨hopen, hclose, hopen', hclose', hliteral, hcomment, -⟩, hblank⟩ := hin
  simp [start, *]

theorem start_backslash {machine : Machine} {position : Nat} {cs : List Char} :
    machine.start position '\\' cs = .ok { machine with mode := .symbolEscape [] } := rfl

theorem readOn_ends {machine : Machine} {read : List Char} {position : Nat} {cs : List Char}
    (h : EndsHere cs) :
    { machine with mode := .symbol read }.readOn position cs =
      (machine.add (.symbol (String.ofList read.reverse))).readOn position cs := by
  cases cs with
  | nil => rfl
  | cons c cs =>
    have hends : endsSymbol c = true := h c rfl
    simp only [readOn, run, step, hends, if_true]
    rfl

theorem step_plain {machine : Machine} {read : List Char} {position : Nat} {c : Char}
    {cs : List Char} (hin : endsSymbol c = false) (hesc : c ≠ '\\') :
    { machine with mode := .symbol read }.step position c cs =
      .ok { machine with mode := .symbol (c :: read) } := by
  simp [step, hin, hesc]

theorem step_backslash {machine : Machine} {read : List Char} {position : Nat} {cs : List Char} :
    { machine with mode := .symbol read }.step position '\\' cs =
      .ok { machine with mode := .symbolEscape read } := rfl

theorem step_escaped {machine : Machine} {read : List Char} {position : Nat} {c : Char}
    {cs : List Char} (hkept : c ∉ symbolEscapes) :
    { machine with mode := .symbolEscape read }.step position c cs =
      .ok { machine with mode := .symbol (c :: '\\' :: read) } := by
  simp [step, unescapeSymbol, hkept]

theorem readOn_continues {cs : List Char} (h : Continues cs) (machine : Machine)
    (read : List Char) (position : Nat) (rest : List Char) :
    ∃ position', { machine with mode := .symbol read }.readOn position (cs ++ rest) =
      { machine with mode := .symbol (cs.reverse ++ read) }.readOn position' rest := by
  induction h generalizing read position with
  | nil => exact ⟨position, rfl⟩
  | @plain c cs hin hesc _ ih =>
    obtain ⟨position', hread⟩ := ih (c :: read) (position + 1)
    refine ⟨position', ?_⟩
    rw [List.cons_append, readOn_cons (step_plain hin hesc), hread]
    simp
  | @escaped c cs hkept _ ih =>
    obtain ⟨position', hread⟩ := ih (c :: '\\' :: read) (position + 1 + 1)
    refine ⟨position', ?_⟩
    rw [List.cons_append, readOn_cons step_backslash, List.cons_append,
      readOn_cons (step_escaped hkept), hread]
    simp

theorem step_between {machine : Machine} (hmode : machine.mode = .between) (position : Nat)
    (c : Char) (cs : List Char) :
    machine.step position c cs = machine.start position c cs := by
  rw [step, hmode]

/-- A verbatim symbol is added to the forms. -/
theorem readOn_verbatim {cs : List Char} (h : Verbatim cs) {machine : Machine}
    (hmode : machine.mode = .between) (position : Nat) {rest : List Char} (hrest : EndsHere rest) :
    ∃ position', machine.readOn position (cs ++ rest) =
      (machine.add (.symbol (String.ofList cs))).readOn position' rest := by
  obtain ⟨hne, hquote, hcontinues⟩ := h
  cases hcontinues with
  | nil => exact absurd rfl hne
  | @plain c cs hin hesc hcs =>
    have hc : c ≠ '\'' := by simpa using hquote
    obtain ⟨position', hread⟩ := readOn_continues hcs machine [c] (position + 1) rest
    refine ⟨position', ?_⟩
    rw [List.cons_append, readOn_cons ((step_between hmode _ _ _).trans (start_plain hin hesc hc)),
      hread, readOn_ends hrest]
    simp
  | @escaped c cs hkept hcs =>
    obtain ⟨position', hread⟩ :=
      readOn_continues hcs machine [c, '\\'] (position + 1 + 1) rest
    refine ⟨position', ?_⟩
    rw [List.cons_append, readOn_cons ((step_between hmode _ _ _).trans start_backslash),
      List.cons_append, readOn_cons (step_escaped hkept), hread, readOn_ends hrest]
    simp

theorem start_blank {machine : Machine} (hmode : machine.mode = .between) {c : Char}
    (hblank : Text.isAsciiBlank c = true) (position : Nat) (cs : List Char) :
    machine.start position c cs = .ok machine := by
  have hliteral : c ≠ '"' := by
    rintro rfl
    exact absurd hblank (by decide)
  obtain ⟨mode, forms, levels⟩ := machine
  subst hmode
  simp [start, hliteral, hblank]

/-- Blanks between forms are skipped. -/
theorem readOn_blanks {blanks : List Char} (hblanks : ∀ c ∈ blanks, Text.isAsciiBlank c = true)
    {machine : Machine} (hmode : machine.mode = .between) (position : Nat) (rest : List Char) :
    ∃ position', machine.readOn position (blanks ++ rest) = machine.readOn position' rest := by
  induction blanks generalizing position with
  | nil => exact ⟨position, rfl⟩
  | cons c blanks ih =>
    have hstart := start_blank hmode (hblanks c List.mem_cons_self) position (blanks ++ rest)
    have hrest : ∀ d ∈ blanks, Text.isAsciiBlank d = true :=
      fun d hd => hblanks d (List.mem_cons_of_mem _ hd)
    obtain ⟨position', hread⟩ := ih hrest (position + 1)
    refine ⟨position', ?_⟩
    rw [List.cons_append, readOn_cons ((step_between hmode _ _ _).trans hstart), hread]

/-- A parenthesis opens a group. -/
theorem readOn_open {machine : Machine} (hmode : machine.mode = .between) (position : Nat)
    (cs : List Char) :
    machine.readOn position ('(' :: cs) = (machine.enter .parenthesis).readOn (position + 1) cs :=
  readOn_cons ((step_between hmode _ _ _).trans rfl)

/-- A parenthesis closes the group that it ends. -/
theorem readOn_close {machine : Machine} (hmode : machine.mode = .between) {before : List Form}
    {levels : List Level} (hlevels : machine.levels = ⟨.parenthesis, before⟩ :: levels)
    (position : Nat) (cs : List Char) :
    machine.readOn position (')' :: cs) =
      { mode := .between, forms := .group machine.forms.reverse :: before,
        levels : Machine }.readOn (position + 1) cs := by
  have hclose : machine.start position ')' cs = machine.close ')' cs := rfl
  refine readOn_cons ((step_between hmode _ _ _).trans (hclose.trans ?_))
  rw [close, hlevels]
  rfl

end Machine

/-! ## Trees -/

mutual

/-- The form that a tree is printed as. -/
def form : Tree → Form
  | .atom text => .symbol text
  | .list items => .group (forms items)

/-- The forms that some trees are printed as. -/
def forms : List Tree → List Form
  | [] => []
  | tree :: trees => tree.form :: forms trees

end

mutual

theorem toTree_form : (tree : Tree) → tree.form.toTree = .ok tree
  | .atom text => rfl
  | .list items => by rw [form, Form.toTree, treesOf_forms items]; rfl

theorem treesOf_forms : (trees : List Tree) → treesOf (forms trees) = .ok trees
  | [] => rfl
  | tree :: trees => by rw [forms, treesOf, toTree_form tree, treesOf_forms trees]; rfl

end

/-- A line is printed as one blank or more. -/
theorem blanks_of_laid_line {indent : Int} {flat : Bool} {s : String}
    (h : Doc.Laid indent flat (.line : Doc Empty) s) :
    s.toList ≠ [] ∧ ∀ c ∈ s.toList, Text.isAsciiBlank c = true := by
  cases h with
  | flatLine =>
    refine ⟨by simp, fun c hc => ?_⟩
    obtain rfl : c = ' ' := by simpa using hc
    decide
  | brokenLine =>
    refine ⟨by simp, fun c hc => ?_⟩
    simp only [String.toList_append, String.toList_ofList, List.mem_append,
      List.mem_replicate] at hc
    rcases hc with hbreak | ⟨-, rfl⟩
    · obtain rfl : c = '\n' := by simpa using hbreak
      decide
    · decide

theorem endsHere_of_blanks {blanks : List Char} (hne : blanks ≠ [])
    (hblanks : ∀ c ∈ blanks, Text.isAsciiBlank c = true) (rest : List Char) :
    EndsHere (blanks ++ rest) := by
  intro c hc
  obtain ⟨d, ds, rfl⟩ := List.exists_cons_of_ne_nil hne
  obtain rfl : d = c := by simpa using hc
  simp [endsSymbol, hblanks d List.mem_cons_self]

/-- What follows an element of a list does not go on its last symbol. -/
theorem endsHere_of_laid_elements {trees : List Tree} {indent : Int} {flat : Bool} {s : String}
    (h : Doc.Laid indent flat (elementsDoc trees) s) (rest : List Char) :
    EndsHere (s.toList ++ rest) := by
  cases trees with
  | nil =>
    rw [elementsDoc] at h
    cases h
    intro c hc
    obtain rfl : ')' = c := by simpa using hc
    decide
  | cons tree trees =>
    rw [elementsDoc] at h
    cases h with
    | append hline hrest =>
      obtain ⟨hne, hblanks⟩ := blanks_of_laid_line hline
      rw [String.toList_append, List.append_assoc]
      exact endsHere_of_blanks hne hblanks _

/-- The layout of a list is that of its first element and of the others, in
parentheses. -/
theorem laid_list {first : Tree} {others : List Tree} {indent : Int} {flat : Bool} {s : String}
    (h : Doc.Laid indent flat (toDoc (.list (first :: others))) s) :
    ∃ flat' t u, s.toList = '(' :: (t.toList ++ u.toList) ∧
      Doc.Laid indent flat' first.toDoc t ∧ Doc.Laid (indent + 2) flat' (elementsDoc others) u := by
  rw [toDoc] at h
  obtain ⟨flat', hbody⟩ := h.of_group
  cases hbody with
  | append hopen hitems =>
    cases hopen
    cases hitems with
    | append hfirst hnest =>
      cases hnest with
      | nest hothers => exact ⟨flat', _, _, by simp, hfirst, hothers⟩

mutual

/-- A layout of a tree with verbatim atoms is read as the form of the tree. -/
theorem readOn_tree : (tree : Tree) → (∀ text ∈ tree.leaves, Verbatim text.toList) →
    ∀ {indent : Int} {flat : Bool} {s : String}, Doc.Laid indent flat tree.toDoc s →
    ∀ {machine : Machine}, machine.mode = .between →
    ∀ (position : Nat) {rest : List Char}, EndsHere rest →
      ∃ position', machine.readOn position (s.toList ++ rest) =
        (machine.add tree.form).readOn position' rest
  | .atom text, hverbatim, _, _, _, hlaid, _, hmode, position, _, hrest => by
    rw [toDoc] at hlaid
    cases hlaid
    have htext : Verbatim text.toList := hverbatim text (by simp [leaves])
    simpa [form] using Machine.readOn_verbatim htext hmode position hrest
  | .list [], _, _, _, _, hlaid, machine, hmode, position, rest, _ => by
    rw [toDoc] at hlaid
    cases hlaid
    refine ⟨position + 1 + 1, ?_⟩
    have hchars : "()".toList ++ rest = '(' :: ')' :: rest := by simp
    rw [hchars, Machine.readOn_open hmode, Machine.readOn_close rfl rfl]
    rfl
  | .list (first :: others), hverbatim, _, _, _, hlaid, machine, hmode, position, rest, _ => by
    obtain ⟨flat', t, u, hs, hfirst, hothers⟩ := laid_list hlaid
    simp only [leaves, leavesAll, List.mem_append] at hverbatim
    have hmode' : (machine.enter .parenthesis).mode = .between := rfl
    obtain ⟨middle, hmiddle⟩ := readOn_tree first (fun a ha => hverbatim a (.inl ha)) hfirst hmode'
      (position + 1) (endsHere_of_laid_elements hothers rest)
    have hlevels : ((machine.enter .parenthesis).add first.form).levels =
        ⟨.parenthesis, machine.forms⟩ :: machine.levels := rfl
    obtain ⟨position', hread⟩ := readOn_elements others (fun a ha => hverbatim a (.inr ha)) hothers
      rfl hlevels middle rest
    refine ⟨position', ?_⟩
    rw [hs, List.cons_append, Machine.readOn_open hmode, List.append_assoc, hmiddle, hread]
    rfl

/-- A layout of the elements after some others completes the group. -/
theorem readOn_elements : (trees : List Tree) → (∀ text ∈ leavesAll trees, Verbatim text.toList) →
    ∀ {indent : Int} {flat : Bool} {s : String}, Doc.Laid indent flat (elementsDoc trees) s →
    ∀ {machine : Machine}, machine.mode = .between →
    ∀ {before : List Form} {levels : List Level},
    machine.levels = ⟨.parenthesis, before⟩ :: levels → ∀ (position : Nat) (rest : List Char),
      ∃ position', machine.readOn position (s.toList ++ rest) =
        { mode := .between, forms := .group (machine.forms.reverse ++ forms trees) :: before,
          levels : Machine }.readOn position' rest
  | [], _, _, _, _, hlaid, machine, hmode, before, levels, hlevels, position, rest => by
    rw [elementsDoc] at hlaid
    cases hlaid
    refine ⟨position + 1, ?_⟩
    have hchars : ")".toList ++ rest = ')' :: rest := by simp
    rw [hchars, Machine.readOn_close hmode hlevels, forms, List.append_nil]
  | tree :: trees, hverbatim, _, _, _, hlaid, machine, hmode, before, levels, hlevels, position,
      rest => by
    rw [elementsDoc] at hlaid
    simp only [leavesAll, List.mem_append] at hverbatim
    cases hlaid with
    | append hline hboth =>
      cases hboth with
      | append htree htrees =>
        obtain ⟨-, hblanks⟩ := blanks_of_laid_line hline
        obtain ⟨start, hstart⟩ := Machine.readOn_blanks hblanks hmode position _
        obtain ⟨middle, hmiddle⟩ := readOn_tree tree (fun a ha => hverbatim a (.inl ha)) htree hmode
          start (endsHere_of_laid_elements htrees rest)
        have hlevels' : (machine.add tree.form).levels = ⟨.parenthesis, before⟩ :: levels := hlevels
        obtain ⟨position', hread⟩ := readOn_elements trees (fun a ha => hverbatim a (.inr ha))
          htrees rfl hlevels' middle rest
        refine ⟨position', ?_⟩
        rw [String.toList_append, String.toList_append, List.append_assoc, hstart,
          List.append_assoc, hmiddle, hread]
        simp [Machine.add, forms]

end

/-- A text that has a tree has one form, of the same tree. -/
theorem read_eq_ok {text : String} {tree : Tree} :
    read text = .ok tree ↔
      ∃ form, readForms text.toList = .ok [form] ∧ form.toTree = .ok tree := by
  constructor
  · intro h
    rw [read, bind_eq_ok] at h
    obtain ⟨forms, hforms, h⟩ := h
    match forms, h with
    | [form], h =>
      refine ⟨form, hforms, ?_⟩
      cases htree : form.toTree with
      | ok found =>
        simp only [htree] at h
        cases h
        rfl
      | error text =>
        simp only [htree] at h
        cases h
  · rintro ⟨form, hforms, htree⟩
    rw [read, hforms, ok_bind]
    simp only [htree]
    rfl

/-- A tree with verbatim atoms is read back from its print, whatever the width. -/
theorem read_render_of_verbatim {tree : Tree} (h : ∀ text ∈ tree.leaves, Verbatim text.toList)
    (width : Int) : read (tree.render width) = .ok tree := by
  have hempty : EndsHere [] := by
    intro c hc
    cases hc
  obtain ⟨position, hread⟩ := readOn_tree tree h (Doc.pretty_laid tree.toDoc width)
    (show ({} : Machine).mode = .between from rfl) 0 hempty
  rw [List.append_nil] at hread
  exact read_eq_ok.2 ⟨tree.form, hread, toTree_form tree⟩

end Resumable.Tree
