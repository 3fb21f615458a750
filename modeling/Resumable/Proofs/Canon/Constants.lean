import Resumable.Proofs.Canon.Rules
import Resumable.Proofs.Grammar.Leaves

/-!
# The constants of a canonical form

Canonicalizing keeps the integers of a function: each becomes one constant, and the constants
come in the order in which the integers are written. What it drops or moves (types, the
declaration of the locals) has no integers in it.
-/

namespace Resumable.Canon

open Source

/-! ## Constants and integers -/

mutual

/-- The texts of the constants in a node, from left to right. -/
def Node.constants : Node → List String
  | .function _ _ _ _ body => body.constants
  | .block statements => constantsOf statements
  | .expression value => value.constants
  | .returning value => value.constants
  | .yieldBreak => []
  | .conditional condition thenPart elsePart =>
      condition.constants ++ (thenPart.constants ++ elsePart.constants)
  | .labeled _ statement => statement.constants
  | .breaking _ => []
  | .continuing _ => []
  | .loop _ condition body => condition.constants ++ body.constants
  | .tryCatch body _ handler => body.constants ++ handler.constants
  | .tryFinally body finalizer => body.constants ++ finalizer.constants
  | .constant text => [text]
  | .reference _ => []
  | .assignment _ value => value.constants
  | .call _ arguments => constantsOf arguments
  | .await value => value.constants
  | .yield value => value.constants
  | .yieldStar value => value.constants
  | .throwing value => value.constants

/-- The texts of the constants in some nodes. -/
def constantsOf : List Node → List String
  | [] => []
  | node :: nodes => node.constants ++ constantsOf nodes

end

/-- The numeral of a leaf that is an integer. -/
def numeral? : Leaf → Option String
  | .integer value _ => some value.repr
  | _ => none

/-- The numerals of the integers among some leaves. -/
def numerals (leaves : List Leaf) : List String :=
  leaves.filterMap numeral?

@[simp] theorem numerals_nil : numerals [] = [] := rfl

@[simp] theorem numerals_name (name : Name) (leaves : List Leaf) :
    numerals (.name name :: leaves) = numerals leaves := rfl

@[simp] theorem numerals_append (leaves others : List Leaf) :
    numerals (leaves ++ others) = numerals leaves ++ numerals others :=
  List.filterMap_append

theorem numerals_flatMap_eq_nil {α : Type} {leaves : α → List Leaf} {items : List α}
    (h : ∀ item ∈ items, numerals (leaves item) = []) : numerals (items.flatMap leaves) = [] := by
  induction items with
  | nil => rfl
  | cons item items ih =>
    obtain ⟨hitem, hitems⟩ := List.forall_mem_cons.1 h
    rw [List.flatMap_cons, numerals_append, hitem, ih hitems, List.nil_append]

/-- Names that may be missing are no integers. -/
@[simp] theorem numerals_leavesOfNames (names : List (Option Name)) :
    numerals (leavesOfNames names) = [] := by
  refine numerals_flatMap_eq_nil fun name _ => ?_
  cases name <;> rfl

/-! ## Along the rules of canonical form -/

mutual

theorem ExprForm.constants_eq {expr : Expr} {node : Node} :
    ExprForm expr node → node.constants = numerals expr.leaves
  | .integer => rfl
  | .identifier => rfl
  | .assignment h => h.constants_eq
  | .call _ h => h.constants_eq
  | .await _ h => by simp [Node.constants, h.constants_eq, Expr.leaves, leavesOfExprs]
  | .yield _ h => by simp [Node.constants, h.constants_eq, Expr.leaves, leavesOfExprs]
  | .yieldStar _ h => by simp [Node.constants, h.constants_eq, Expr.leaves, leavesOfExprs]
  | .throwing h => h.constants_eq

theorem ExprsForm.constants_eq {exprs : List Expr} {nodes : List Node} :
    ExprsForm exprs nodes → constantsOf nodes = numerals (leavesOfExprs exprs)
  | .nil => rfl
  | .cons h hs => by
      rw [constantsOf, h.constants_eq, hs.constants_eq, leavesOfExprs, numerals_append]

end

@[simp] theorem constants_statementOf (node : Node) :
    (statementOf node).constants = node.constants := by
  cases node <;> rfl

mutual

theorem StmtForm.constants_eq {stmt : Stmt} {node : Node} :
    StmtForm stmt node → node.constants = numerals stmt.leaves
  | .block h => by rw [Node.constants, h.constants_eq, Stmt.leaves]
  | .expression h => by rw [constants_statementOf, h.constants_eq, Stmt.leaves]
  | .yieldBreak => by simp [Node.constants, Stmt.leaves, leavesOfValue]
  | .returning h => by rw [Node.constants, h.constants_eq, Stmt.leaves, leavesOfValue]
  | .conditional hc ht he => by
      simp [Node.constants, hc.constants_eq, ht.constants_eq, he.constants_eq, Stmt.leaves]
  | .labeled _ h => by simp [Node.constants, h.constants_eq, Stmt.leaves]
  | .labeledLoop hc hb => by
      simp [Node.constants, hc.constants_eq, hb.constants_eq, Stmt.leaves]
  | .loop hc hb => by simp [Node.constants, hc.constants_eq, hb.constants_eq, Stmt.leaves]
  | .breaking => by simp [Node.constants, Stmt.leaves]
  | .continuing => by simp [Node.constants, Stmt.leaves]
  | .tryCatch hb hh => by
      simp [Node.constants, hb.constants_eq, hh.constants_eq, Stmt.leaves, leavesOfClauses,
        CatchClause.leaves]
  | .tryFinally hb hf => by
      simp [Node.constants, hb.constants_eq, hf.constants_eq, Stmt.leaves, leavesOfClauses]

theorem StmtsForm.constants_eq {stmts : List Stmt} {nodes : List Node} :
    StmtsForm stmts nodes → constantsOf nodes = numerals (leavesOfStmts stmts)
  | .nil => rfl
  | .cons h hs => by
      rw [constantsOf, h.constants_eq, hs.constants_eq, leavesOfStmts, numerals_append]

end

/-- Required parameters have no values. -/
theorem numerals_required (binders : List Binder) :
    numerals ((binders.map Parameter.required).flatMap Parameter.leaves) = [] := by
  refine numerals_flatMap_eq_nil fun parameter hparameter => ?_
  obtain ⟨binder, -, rfl⟩ := List.mem_map.1 hparameter
  exact numerals_leavesOfNames _

/-- Locals have names, but no values to start with. -/
theorem numerals_locals (locals : List Name) :
    numerals ((locals.map (⟨·, none⟩)).flatMap Variable.leaves) = [] := by
  refine numerals_flatMap_eq_nil fun item hitem => ?_
  obtain ⟨name, -, rfl⟩ := List.mem_map.1 hitem
  rfl

/-- The leaves of a body are those of the hoisted variables and of the other statements. -/
theorem leavesOfStmts_hoist (body : Block) :
    leavesOfStmts body =
      (hoist body).1.flatMap Variable.leaves ++ leavesOfStmts (hoist body).2 := by
  unfold hoist
  split <;> rfl

/-- The statement that declares the locals has no integers. -/
theorem numerals_hoist {body : Block} {locals : List Name}
    (h : (hoist body).1 = locals.map (⟨·, none⟩)) :
    numerals (leavesOfStmts (hoist body).2) = numerals (leavesOfStmts body) := by
  rw [leavesOfStmts_hoist body, numerals_append, h, numerals_locals, List.nil_append]

/-- The constants of a function are its integers, in the order in which they are written. -/
theorem FunctionForm.constants_eq {classify : Classifier} {function : Function}
    {procedure : Procedure} (h : FunctionForm classify function procedure) :
    procedure.body.constants = numerals function.leaves := by
  obtain @⟨type, name, binders, body, modifier, tag, kind, locals, nodes, -, -, hlocals,
    hstatements⟩ := h
  rw [Node.constants, hstatements.constants_eq, numerals_hoist hlocals, blockFunction,
    Function.leaves, numerals_append, numerals_append, numerals_leavesOfNames, numerals_required,
    List.nil_append, List.nil_append, Body.leaves]

end Resumable.Canon
