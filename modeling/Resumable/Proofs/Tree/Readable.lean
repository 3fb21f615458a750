import Resumable.Proofs.Token.Spelling
import Resumable.Proofs.Tree.Reading

/-!
# Atoms that are read as they are written

A tree whose atoms are read as they are written is read back from its print. Among
such atoms are all numerals and names: the reader keeps their characters wherever
they stand.
-/

namespace Resumable.Tree

/-! ## Trees of such atoms -/

/-- Each atom of a tree is read as it is written. -/
def Readable (tree : Tree) : Prop :=
  ∀ text ∈ tree.leaves, Verbatim text.toList

theorem mem_leavesAll {trees : List Tree} {text : String} :
    text ∈ leavesAll trees ↔ ∃ tree ∈ trees, text ∈ tree.leaves := by
  induction trees with
  | nil => simp [leavesAll]
  | cons tree trees ih => simp [leavesAll, ih]

theorem readable_atom {text : String} : (atom text).Readable ↔ Verbatim text.toList := by
  simp [Readable, leaves]

theorem readable_list {items : List Tree} :
    (list items).Readable ↔ ∀ item ∈ items, item.Readable := by
  simp only [Readable, leaves, mem_leavesAll]
  constructor
  · intro h item hitem text htext
    exact h text ⟨item, hitem, htext⟩
  · rintro h text ⟨item, hitem, htext⟩
    exact h item hitem text htext

theorem readable_atoms {names : List String} :
    (atoms names).Readable ↔ ∀ name ∈ names, Verbatim name.toList := by
  simp only [atoms, readable_list, List.forall_mem_map, readable_atom]

/-! ## Plain characters -/

/-- Whether the reader keeps a character wherever it stands in an atom. -/
def isPlain (c : Char) : Bool :=
  !endsSymbol c && c != '\\' && c != '\''

theorem isPlain_iff {c : Char} :
    isPlain c = true ↔ endsSymbol c = false ∧ c ≠ '\\' ∧ c ≠ '\'' := by
  simp [isPlain, and_assoc]

theorem continues_of_isPlain {cs : List Char} (h : ∀ c ∈ cs, isPlain c = true) : Continues cs := by
  induction cs with
  | nil => exact .nil
  | cons c cs ih =>
    obtain ⟨hc, hcs⟩ := List.forall_mem_cons.1 h
    obtain ⟨hinside, hbackslash, -⟩ := isPlain_iff.1 hc
    exact .plain hinside hbackslash (ih hcs)

theorem verbatim_of_isPlain {cs : List Char} (hne : cs ≠ []) (h : ∀ c ∈ cs, isPlain c = true) :
    Verbatim cs where
  nonempty := hne
  unquoted := fun hquote => (isPlain_iff.1 (h _ (List.mem_of_mem_head? hquote))).2.2 rfl
  continues := continues_of_isPlain h

/-- No character of a word is blank: the digits come first among them. -/
theorem isAsciiBlank_of_continuesWord {c : Char} (h : Token.continuesWord c = true) :
    Text.isAsciiBlank c = false := by
  have hword : 48 ≤ c.toNat := by
    rw [Token.continuesWord, Bool.or_eq_true] at h
    rcases h with hstarts | hdecimal
    · simp only [Token.startsWord, Bool.or_eq_true, Bool.and_eq_true, decide_eq_true_eq, beq_iff_eq]
        at hstarts
      rcases hstarts with (⟨hle, -⟩ | ⟨hle, -⟩) | rfl
      · exact le_trans (by decide) (show 'a'.toNat ≤ c.toNat from hle)
      · exact le_trans (by decide) (show 'A'.toNat ≤ c.toNat from hle)
      · decide
    · simp only [Token.isDecimal, Bool.and_eq_true, decide_eq_true_eq] at hdecimal
      exact hdecimal.1
  have hlow : ¬ c.toNat < 9 := by omega
  have htab : ¬ c.toNat ≤ 13 := by omega
  have hspace : ¬ c.toNat ≤ 32 := by omega
  simp [Text.isAsciiBlank, Text.inRanges, hlow, htab, hspace]

theorem isPlain_of_continuesWord {c : Char} (h : Token.continuesWord c = true) :
    isPlain c = true := by
  have hother : ∀ d : Char, Token.continuesWord d = false → c ≠ d := by
    rintro d hd rfl
    rw [h] at hd
    cases hd
  have hends : c ∉ ['(', ')', '[', ']', '"', ';'] := by
    simp only [List.mem_cons, List.not_mem_nil, or_false, not_or]
    exact ⟨hother _ (by decide), hother _ (by decide), hother _ (by decide), hother _ (by decide),
      hother _ (by decide), hother _ (by decide)⟩
  refine isPlain_iff.2 ⟨?_, hother _ (by decide), hother _ (by decide)⟩
  rw [endsSymbol, isAsciiBlank_of_continuesWord h, Bool.or_false, decide_eq_false hends]

/-! ## Numerals and names -/

theorem isPlain_of_mem_repr {value : Nat} {c : Char} (h : c ∈ value.repr.toList) :
    isPlain c = true := by
  rw [Nat.toList_repr] at h
  have hdigit := Nat.isDigit_of_mem_toDigits (by decide) (by decide) h
  exact isPlain_of_continuesWord (by simp [Token.continuesWord, Token.isDecimal_of_isDigit hdigit])

/-- The numeral of a natural number is read as it is written. -/
theorem verbatim_natRepr (value : Nat) : Verbatim value.repr.toList := by
  refine verbatim_of_isPlain ?_ fun c => isPlain_of_mem_repr
  rw [Nat.toList_repr]
  exact Nat.toDigits_ne_nil

/-- The numeral of an integer is read as it is written. -/
theorem verbatim_repr (value : Int) : Verbatim value.repr.toList := by
  cases value with
  | ofNat value => exact verbatim_natRepr value
  | negSucc value =>
    have hminus : "-".toList = ['-'] := by decide
    rw [Int.repr, String.toList_append, hminus]
    refine verbatim_of_isPlain (by simp) (List.forall_mem_cons.2 ⟨?_, fun c => isPlain_of_mem_repr⟩)
    decide

/-- A name is read as it is written. -/
theorem verbatim_of_identifier {text : String} (h : Token.Identifier text) :
    Verbatim text.toList := by
  have hword := h.word
  generalize text.toList = cs at hword
  cases hword with
  | word starts continues =>
    refine verbatim_of_isPlain (by simp) (List.forall_mem_cons.2 ⟨?_, ?_⟩)
    · exact isPlain_of_continuesWord (by simp [Token.continuesWord, starts])
    · exact fun d hd => isPlain_of_continuesWord (continues d hd)

end Resumable.Tree
