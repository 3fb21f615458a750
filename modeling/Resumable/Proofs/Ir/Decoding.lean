import Resumable.Ir
import Resumable.Proofs.Tree.Readable
import Resumable.Proofs.Tree.RoundTrip

/-!
# Programs from their texts

The tree that shows a form is decoded to that form, whatever names and numbers occur
in it. The text of a program is read as its tree, at any width, if each name in it is
read as it is written. So the text determines the program.
-/

namespace Resumable

/-! ## Decoding -/

/-- What is made of some items one by one is decoded if each item is. -/
theorem mapM_map_eq_some {α β : Type} {encode : α → β} {decode? : β → Option α}
    (h : ∀ item, decode? (encode item) = some item) (items : List α) :
    (items.map encode).mapM decode? = some items := by
  induction items with
  | nil => rfl
  | cons item items ih => simp [h, ih]

/-- The text of an atom. -/
def Tree.atom? : Tree → Option String
  | .atom text => some text
  | .list _ => none

/-- The texts of a list of atoms. -/
def Tree.atoms? : Tree → Option (List String)
  | .atom _ => none
  | .list items => items.mapM Tree.atom?

@[simp] theorem Tree.atoms?_atoms (names : List String) : (atoms names).atoms? = some names := by
  have hatom : ∀ name, (atom name).atom? = some name := fun _ => rfl
  exact mapM_map_eq_some hatom names

namespace Ir

/-- The form that a tree shows. -/
def ofTree? : Tree → Option Ir
  | .list [.atom "Constant", .atom value] => value.toInt?.map .constant
  | .list [.atom "Fun", parameters, .atom returnTo, .atom throwTo, body] => do
      return .function (← parameters.atoms?) returnTo throwTo (← ofTree? body)
  | .list [.atom "Await", .atom awaited, .atom normalTo, .atom errorTo] =>
      some (.await awaited normalTo errorTo)
  | .list [.atom "LetVal", .atom name, bound, rest] => do
      return .letValue name (← ofTree? bound) (← ofTree? rest)
  | .list [.atom "LetCont", .atom name, parameters, body, rest] => do
      return .letContinuation name (← parameters.atoms?) (← ofTree? body) (← ofTree? rest)
  | .list [.atom "CallFun", .atom callee, arguments, .atom returnTo, .atom throwTo] => do
      return .callFunction callee (← arguments.atoms?) returnTo throwTo
  | .list [.atom "CallCont", .atom callee, arguments] => do
      return .callContinuation callee (← arguments.atoms?)
  | .list [.atom "If", .atom condition, thenPart, elsePart] => do
      return .branch condition (← ofTree? thenPart) (← ofTree? elsePart)
  | .list [.atom "FunDecl", .atom name, parameters, .atom returnTo, .atom throwTo, body] => do
      return .declaration name (← parameters.atoms?) returnTo throwTo (← ofTree? body)
  | _ => none

theorem ofTree?_toTree (ir : Ir) : ofTree? ir.toTree = some ir := by
  induction ir with
  | constant value => simp [toTree, Tree.atoms, ofTree?, Int.toInt?_repr]
  | await => simp [toTree, Tree.atoms, ofTree?]
  | callFunction | callContinuation => simp [toTree, ofTree?]
  | function _ _ _ _ ih | declaration _ _ _ _ _ ih => simp [toTree, ofTree?, ih]
  | letValue _ _ _ ih ih' | letContinuation _ _ _ _ ih ih' | branch _ _ _ ih ih' =>
    simp [toTree, ofTree?, ih, ih']

/-! ## Names -/

/-- All names in a form, bound or used. -/
def names : Ir → List String
  | .constant _ => []
  | .function parameters returnTo throwTo body => parameters ++ [returnTo, throwTo] ++ body.names
  | .await awaited normalTo errorTo => [awaited, normalTo, errorTo]
  | .letValue name bound rest => name :: bound.names ++ rest.names
  | .letContinuation name parameters body rest => name :: parameters ++ body.names ++ rest.names
  | .callFunction callee arguments returnTo throwTo => callee :: arguments ++ [returnTo, throwTo]
  | .callContinuation callee arguments => callee :: arguments
  | .branch condition thenPart elsePart => condition :: thenPart.names ++ elsePart.names
  | .declaration name parameters returnTo throwTo body =>
      name :: parameters ++ [returnTo, throwTo] ++ body.names

/-- The atoms that tell the forms apart. -/
def tags : List String :=
  ["Constant", "Fun", "Await", "LetVal", "LetCont", "CallFun", "CallCont", "If", "FunDecl"]

theorem readable_tagged {tag : String} (htag : tag ∈ tags) {children : List Tree}
    (h : ∀ child ∈ children, child.Readable) : (Tree.list (.atom tag :: children)).Readable := by
  have hplain : ∀ tag ∈ tags, tag.toList ≠ [] ∧ tag.toList.all Tree.isPlain = true := by
    decide +kernel
  obtain ⟨hne, hall⟩ := hplain tag htag
  refine Tree.readable_list.2 (List.forall_mem_cons.2 ⟨Tree.readable_atom.2 ?_, h⟩)
  exact Tree.verbatim_of_isPlain hne (List.all_eq_true.1 hall)

/-- If each name in a form is read as it is written, so is each atom of its tree. -/
theorem readable_toTree {ir : Ir} (h : ∀ name ∈ ir.names, Tree.Verbatim name.toList) :
    ir.toTree.Readable := by
  induction ir with
  | constant value =>
    refine readable_tagged (by simp [tags]) ?_
    simpa [Tree.readable_atom] using Tree.verbatim_repr value
  | await | callFunction | callContinuation =>
    refine readable_tagged (by simp [tags]) ?_
    simpa [names, Tree.readable_atom, Tree.readable_atoms, or_imp, forall_and, and_assoc] using h
  | function _ _ _ _ ih | declaration _ _ _ _ _ ih =>
    obtain ⟨hnames, hbody⟩ := List.forall_mem_append.1 h
    refine readable_tagged (by simp [tags]) ?_
    simpa [Tree.readable_atom, Tree.readable_atoms, or_imp, forall_and, ih hbody] using hnames
  | letValue _ _ _ ih ih' | branch _ _ _ ih ih' =>
    obtain ⟨hfirst, hsecond⟩ := List.forall_mem_append.1 h
    obtain ⟨hname, hfirst⟩ := List.forall_mem_cons.1 hfirst
    refine readable_tagged (by simp [tags]) ?_
    simpa [Tree.readable_atom, ih hfirst, ih' hsecond] using hname
  | letContinuation _ _ _ _ ih ih' =>
    obtain ⟨hfirst, hrest⟩ := List.forall_mem_append.1 h
    obtain ⟨hnames, hbody⟩ := List.forall_mem_append.1 hfirst
    refine readable_tagged (by simp [tags]) ?_
    simpa [Tree.readable_atom, Tree.readable_atoms, ih hbody, ih' hrest] using hnames

end Ir

namespace Program

/-- All names in a program, those of its functions among them. -/
def names (program : Program) : List String :=
  program.flatMap fun it => it.toIr.names

/-- The declaration that a tree shows. -/
def declarationOfTree? (tree : Tree) : Option FunctionDecl :=
  match Ir.ofTree? tree with
  | some (.declaration name parameters returnTo throwTo body) =>
      some ⟨name, parameters, returnTo, throwTo, body⟩
  | _ => none

/-- The program that a tree shows. -/
def ofTree? : Tree → Option Program
  | .atom _ => none
  | .list items => items.mapM declarationOfTree?

theorem ofTree?_toTree (program : Program) : ofTree? program.toTree = some program := by
  have hdeclaration : ∀ it : FunctionDecl, declarationOfTree? it.toIr.toTree = some it := by
    intro it
    rw [declarationOfTree?, Ir.ofTree?_toTree]
    rfl
  exact mapM_map_eq_some hdeclaration program

/-- The text of a program is read as its tree, at any width, if its names are read as
they are written. -/
theorem read_render {program : Program}
    (h : ∀ name ∈ program.names, Tree.read name = .ok (.atom name)) (width : Int) :
    Tree.read (program.render width) = .ok program.toTree := by
  refine Tree.read_render_of_verbatim (Tree.readable_list.2 (List.forall_mem_map.2 ?_)) width
  intro it hit
  refine Ir.readable_toTree fun name hname => ?_
  exact (Tree.read_atom_iff_verbatim name).1 (h name (List.mem_flatMap.2 ⟨it, hit, hname⟩))

end Program

/-- The tree of each form is decoded to that form. Programs of the same text, be it for
different widths, are the same, if all their names are read as they are written. -/
theorem eq_of_render_eq :
    (∀ ir : Ir, Ir.ofTree? ir.toTree = some ir) ∧
    ∀ (program other : Program) (width width' : Int),
      (∀ name ∈ program.names, Tree.read name = .ok (.atom name)) →
      (∀ name ∈ other.names, Tree.read name = .ok (.atom name)) →
      program.render width = other.render width' → program = other := by
  refine ⟨Ir.ofTree?_toTree, fun program other width width' hprogram hother hrender => ?_⟩
  have htree : program.toTree = other.toTree := by
    have hread := Program.read_render hprogram width
    rw [hrender, Program.read_render hother width', Except.ok.injEq] at hread
    exact hread.symm
  have hdecoded := program.ofTree?_toTree
  rw [htree, other.ofTree?_toTree, Option.some.injEq] at hdecoded
  exact hdecoded.symm

/-- A short program has the same text for two widths, but not the text of a program that
differs from it only in that a call stands for a number of the same atoms. -/
theorem render_eq_and_ne :
    let number : Program := [⟨"f", [], "k", "t", .constant (-7)⟩]
    let call : Program := [⟨"f", [], "k", "t", .callContinuation "Constant" ["-7"]⟩]
    number.render 80 = number.render 120 ∧ number.render 80 ≠ call.render 5 := by
  refine ⟨by decide +kernel, fun h => ?_⟩
  have hsame := eq_of_render_eq.2 _ _ 80 5 (by decide +kernel) (by decide +kernel) h
  simp at hsame

end Resumable
