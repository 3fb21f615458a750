import Resumable.Proofs.Report.Expressed
import Resumable.Proofs.Tree.Readable
import Resumable.Proofs.Tree.RoundTrip

/-!
# Reading back what a text is compiled to

Each atom of a tree that can be written is a tag, a name or a numeral, and so is read
as it is written. What a text is compiled to differs from such a tree at most in the
tag of a function, whatever the classifier. So its print is read back, at any width.
-/

namespace Resumable.Canon

open Source
open Resumable.Tree (readable_atom readable_atoms readable_list verbatim_of_identifier)

/-! ## Trees that can be written -/

theorem readable_tagged {tag : Tag} {children : List Tree} :
    (tagged tag children).Readable ↔ ∀ child ∈ children, child.Readable := by
  have hplain : tag.text.toList ≠ [] ∧ tag.text.toList.all Tree.isPlain = true := by
    cases tag <;> decide +kernel
  have htag : (Tree.atom tag.text).Readable :=
    readable_atom.2 (Tree.verbatim_of_isPlain hplain.1 (List.all_eq_true.1 hplain.2))
  rw [tagged, readable_list, List.forall_mem_cons, and_iff_right htag]

theorem readable_blockTree {statements : List Tree} :
    (blockTree statements).Readable ↔ ∀ tree ∈ statements, tree.Readable := by
  simp only [blockTree, readable_tagged, List.forall_mem_singleton, readable_list]

theorem WritableExpr.readable {tree : Tree} (h : WritableExpr tree) : tree.Readable := by
  induction h with
  | constant value =>
    exact readable_tagged.2 (by simpa [readable_atom] using Tree.verbatim_natRepr value)
  | reference hname =>
    simpa [readable_tagged, readable_atom] using verbatim_of_identifier hname
  | assignment hname _ ih =>
    simpa [readable_tagged, readable_atom, ih] using verbatim_of_identifier hname
  | call hname _ _ ih =>
    simpa [readable_tagged, readable_atom, readable_list] using ⟨verbatim_of_identifier hname, ih⟩
  | await _ ih | yield _ ih | yieldStar _ ih | throwing _ ih => simpa [readable_tagged] using ih

theorem readable_labelTree {label : Option String} (h : ∀ name ∈ label, Token.Identifier name) :
    (labelTree label).Readable := by
  cases label with
  | none => simp [labelTree, readable_list]
  | some name => exact readable_atom.2 (verbatim_of_identifier (h name rfl))

theorem WritableStmt.readable {tree : Tree} (h : WritableStmt tree) : tree.Readable := by
  induction h with
  | block _ ih => exact readable_blockTree.2 ih
  | expression hvalue _ | yield hvalue | yieldStar hvalue | returning hvalue =>
    simpa [readable_tagged] using hvalue.readable
  | yieldBreak => simp [readable_tagged]
  | conditional hcondition _ _ ih ih' =>
    simpa [readable_tagged, readable_blockTree] using ⟨hcondition.readable, ih, ih'⟩
  | labeled hlabel _ _ _ ih =>
    simpa [readable_tagged, readable_atom, ih] using verbatim_of_identifier hlabel
  | breaking hlabel | continuing hlabel =>
    simpa [readable_tagged, readable_atom] using verbatim_of_identifier hlabel
  | loop label hlabel hcondition _ ih =>
    simpa [readable_tagged] using ⟨readable_labelTree hlabel, hcondition.readable, ih⟩
  | tryCatch hexception _ _ ih ih' =>
    simpa [readable_tagged, readable_atom, readable_blockTree] using
      ⟨ih, verbatim_of_identifier hexception, ih'⟩
  | tryFinally _ _ ih ih' => simpa [readable_tagged, readable_blockTree] using ⟨ih, ih'⟩

theorem WritableFunction.readable {tree : Tree} (h : WritableFunction tree) : tree.Readable := by
  obtain ⟨hname, hparameters, hlocals, hstatements⟩ := h
  simp only [readable_tagged, List.forall_mem_cons, readable_atom, readable_atoms,
    readable_blockTree]
  exact ⟨verbatim_of_identifier hname,
    fun name hmem => verbatim_of_identifier (hparameters name hmem),
    fun name hmem => verbatim_of_identifier (hlocals name hmem),
    fun tree hmem => (hstatements tree hmem).readable, List.forall_mem_nil _⟩

/-! ## Functions of any classifier -/

/-- The classifier matters only for the kind of a function. -/
theorem FunctionForm.byName {classify : Classifier} {function : Function} {procedure : Procedure}
    (h : FunctionForm classify function procedure) :
    FunctionForm .byName function
      { procedure with kind := Classifier.kindOfName procedure.name } := by
  obtain ⟨-, -, hlocals, hstatements⟩ := h
  exact .mk rfl (FunctionKind.ofText?_eq_some.2 rfl) hlocals hstatements

theorem readable_toTree_of_kind {procedure : Procedure} {kind : FunctionKind}
    (h : { procedure with kind }.toTree.Readable) : procedure.toTree.Readable :=
  readable_tagged.2 (readable_tagged.1 h)

theorem DeclarationSound.readable {declaration : Declaration} (h : DeclarationSound declaration)
    {classify : Classifier} {procedure : Procedure}
    (hcanon : canonDeclaration classify declaration = .ok procedure) :
    procedure.toTree.Readable := by
  obtain ⟨function, rfl, hform⟩ := canonDeclaration_eq_ok.1 hcanon
  have hwritable := h _ (canonDeclaration_eq_ok.2 ⟨function, rfl, hform.byName⟩)
  exact readable_toTree_of_kind hwritable.readable

end Resumable.Canon

namespace Resumable.Report

open Canon (Classifier Procedure canonDeclaration)
open Grammar (Derivation)

variable {classify : Classifier} {keepGoing : Bool} {text : String} {report : Report}
  {procedures : List Procedure}

theorem compile_readable
    (h : (compile classify keepGoing text report).2 = .ok (some procedures)) :
    ∀ procedure ∈ procedures, procedure.toTree.Readable := by
  obtain ⟨unit, hunit, hprocedures⟩ := compile_eq_some_iff.1 h
  intro procedure hprocedure
  have hmem : Except.ok procedure ∈ unit.map (canonDeclaration classify) :=
    hprocedures ▸ List.mem_map_of_mem hprocedure
  obtain ⟨declaration, hdeclaration, hcanon⟩ := List.mem_map.1 hmem
  exact (parse_sound hunit declaration hdeclaration).readable hcanon

/-- If a text is compiled, by any classifier, the print of the result is read back at any
width: each atom in the result is read as itself. -/
theorem read_render_compile
    (h : (compile classify keepGoing text report).2 = .ok (some procedures)) (width : Int) :
    let trees := Tree.list (procedures.map (·.toTree))
    Tree.read (trees.render width) = .ok trees ∧
      ∀ atom ∈ trees.leaves, Tree.read atom = .ok (.atom atom) := by
  intro trees
  have hreadable : trees.Readable :=
    Tree.readable_list.2 (List.forall_mem_map.2 (compile_readable h))
  refine ⟨Tree.read_render_of_verbatim hreadable width, fun atom hatom => ?_⟩
  exact (Tree.read_atom_iff_verbatim atom).2 (hreadable atom hatom)

/-- A text with one function: a generator, which has the name of an asynchronous function
and returns a hexadecimal number. -/
def markedFunctionText : String :=
  "f_async()sync*\x7breturn 0x1F;\x7d"

/-- The derivation of the text. -/
def markedFunctionDerivation : Derivation (.nonterminal .unit) :=
  .apply .unitOf (.cons (.apply .moreDeclarations (.cons (.apply .noDeclarations .nil) (.cons
    (.apply .functionItself (.cons (.apply .untypedFunction
      (.cons (.token ⟨.name, ['f', '_', 'a', 's', 'y', 'n', 'c'], ⟨0, 7⟩⟩)
      (.cons (.apply .formals (.cons (.token ⟨.parenL, ['('], ⟨7, 8⟩⟩)
        (.cons (.apply .noParameters .nil) (.cons (.token ⟨.parenR, [')'], ⟨8, 9⟩⟩) .nil))))
      (.cons (.apply .modifiedBlockBody
        (.cons (.apply .syncStarModifier (.cons (.token ⟨.kwSync, ['s', 'y', 'n', 'c'], ⟨9, 13⟩⟩)
          (.cons (.token ⟨.star, ['*'], ⟨13, 14⟩⟩) .nil)))
        (.cons (.apply .block (.cons (.token ⟨.braceL, ['\x7b'], ⟨14, 15⟩⟩)
          (.cons (.apply .moreStatements (.cons (.apply .noStatements .nil)
            (.cons (.apply .plainStatement (.cons (.apply .returnValue
              (.cons (.token ⟨.kwReturn, ['r', 'e', 't', 'u', 'r', 'n'], ⟨15, 21⟩⟩)
              (.cons (.apply .plainOperand (.cons (.apply .plainPrimary (.cons (.apply .integer
                (.cons (.token ⟨.integer, ['0', 'x', '1', 'F'], ⟨22, 26⟩⟩) .nil)) .nil)) .nil))
              (.cons (.token ⟨.semicolon, [';'], ⟨26, 27⟩⟩) .nil)))) .nil)) .nil)))
          (.cons (.token ⟨.braceR, ['\x7d'], ⟨27, 28⟩⟩) .nil)))) .nil)))
      .nil)))) .nil)) .nil))) .nil)

theorem parse_markedFunction (report : Report) :
    (report.parse markedFunctionText).2 = .ok (some markedFunctionDerivation.meaning) := by
  have hscan : (Token.scan markedFunctionText).ending = .finished ⟨27, 28⟩ := by decide +kernel
  have hyield : markedFunctionDerivation.yield = (Token.scan markedFunctionText).tokens := by
    decide +kernel
  exact parse_eq_ok_iff.2
    ⟨markedFunctionDerivation, (Parser.parse_eq_accepted_iff hscan).2 hyield, rfl⟩

/-- A marker is not part of what is printed, and a hexadecimal number is printed in decimal. -/
theorem read_render_compile_marked :
    let procedure : Procedure :=
      ⟨.syncStar, "f_async", [], [], .block [.returning (.constant "31")]⟩
    (compile .byModifier false markedFunctionText {}).2 = .ok (some [procedure]) ∧
      Tree.read ((Tree.list [procedure.toTree]).render 20) = .ok (.list [procedure.toTree]) := by
  intro procedure
  have hcompile : (compile .byModifier false markedFunctionText {}).2 = .ok (some [procedure]) :=
    compile_eq_some_iff.2 ⟨_, parse_markedFunction {}, rfl⟩
  exact ⟨hcompile, (read_render_compile hcompile 20).1⟩

end Resumable.Report
