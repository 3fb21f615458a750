import Resumable.Proofs.Canon.Shape
import Resumable.Proofs.Canon.Violations

/-!
# The phrase to blame has a head

Only a catch clause with neither a type nor an exception has no head. A function
without such clauses is never refused on account of one.
-/

namespace Resumable.Canon

open Source

/-! ## Clauses with a head -/

mutual

/-- Each catch clause in a statement has a type or an exception. -/
def ClausesNamed : Stmt → Prop
  | .block body => AllClausesNamed body
  | .ifThen _ _ thenPart => ClausesNamed thenPart
  | .ifElse _ _ thenPart elsePart => ClausesNamed thenPart ∧ ClausesNamed elsePart
  | .labeled _ _ body => ClausesNamed body
  | .whileLoop _ _ body => ClausesNamed body
  | .doLoop _ body _ => ClausesNamed body
  | .attempt _ body clauses => AllClausesNamed body ∧ EachNamed clauses
  | .attemptFinally _ body clauses finalizer =>
      AllClausesNamed body ∧ EachNamed clauses ∧ AllClausesNamed finalizer
  | .declaration _ _ | .expression _ | .empty _ | .returning _ _ | .breaking _ _
  | .continuing _ _ => True

/-- Each catch clause in some statements has a type or an exception. -/
def AllClausesNamed : List Stmt → Prop
  | [] => True
  | stmt :: stmts => ClausesNamed stmt ∧ AllClausesNamed stmts

/-- A catch clause has a type or an exception, and so has each one in its body. -/
def Named : CatchClause → Prop
  | .mk type exception _ body => (type.isSome ∨ exception.isSome) ∧ AllClausesNamed body

/-- Some catch clauses have types or exceptions, and so has each one in their bodies. -/
def EachNamed : List CatchClause → Prop
  | [] => True
  | clause :: clauses => Named clause ∧ EachNamed clauses

end

/-- Each catch clause in a declaration has a type or an exception. -/
def DeclarationNamed : Declaration → Prop
  | .function ⟨_, _, _, .block body _⟩ => AllClausesNamed body
  | .function ⟨_, _, _, .arrow _ _⟩ | .bindings _ _ => True

/-- The phrase to blame, if there is one, has a head. -/
def Headed (guilty : Option Phrase) : Prop :=
  ∃ spot, spotOf guilty = .ok spot

theorem Named.headed {clause : CatchClause} (h : Named clause) :
    Headed (some (.catchClause clause)) := by
  obtain ⟨_ | type, _ | exception, trace, body⟩ := clause
  · simp [Named] at h
  · exact ⟨exception.spot, rfl⟩
  · exact ⟨type.spot, rfl⟩
  · exact ⟨type.spot, rfl⟩

/-! ## Violations -/

mutual

theorem exprViolations_headed : (expr : Expr) → Blames Headed (exprViolations expr)
  | .integer _ _ | .identifier _ => .nil
  | .string _ _ => .cons ⟨_, rfl⟩ .nil
  | .property target _ => .cons ⟨_, rfl⟩ (exprViolations_headed target)
  | .assignment left right =>
      .append (blames_ownExprViolations ⟨_, rfl⟩)
        (.append (exprViolations_headed left) (exprViolations_headed right))
  | .call _ arguments =>
      .append (blames_ownExprViolations ⟨_, rfl⟩) (exprsViolations_headed arguments)
  | .methodCall receiver _ arguments =>
      .append (blames_ownExprViolations ⟨_, rfl⟩)
        (.append (exprViolations_headed receiver) (exprsViolations_headed arguments))
  | .throwing _ value => exprViolations_headed value

theorem exprsViolations_headed : (exprs : List Expr) → Blames Headed (exprsViolations exprs)
  | [] => .nil
  | expr :: exprs => .append (exprViolations_headed expr) (exprsViolations_headed exprs)

end

theorem valueViolations_headed : (value : Option Expr) → Blames Headed (valueViolations value)
  | none => .nil
  | some value => exprViolations_headed value

theorem localViolations_headed (item : Variable) : Blames Headed (localViolations item) := by
  obtain ⟨name, _ | value⟩ := item
  · exact .nil
  · exact .cons ⟨_, rfl⟩ (exprViolations_headed value)

theorem Named.ownClauseViolations_headed {clause : CatchClause} (h : Named clause) :
    Blames Headed (ownClauseViolations clause) := by
  obtain ⟨type, exception, trace, body⟩ := clause
  have htrace : Blames Headed (trace.toList.map fun name => ⟨.stackTrace, some (.name name)⟩) :=
    List.forall_mem_map.2 fun _ _ => ⟨_, rfl⟩
  refine .append (.append (List.forall_mem_map.2 fun _ _ => h.headed) ?_) htrace
  cases exception with
  | none => exact .cons h.headed .nil
  | some exception => exact .nil

/-- A statement itself is blamed, or a label, or the second one of its clauses. -/
theorem ownStmtViolations_headed :
    (stmt : Stmt) → ClausesNamed stmt → Blames Headed (ownStmtViolations stmt)
  | .block _, _ | .expression _, _ | .returning _ _, _ | .ifElse _ _ _ _, _ | .whileLoop _ _ _, _ =>
      .nil
  | .declaration _ _, _ | .empty _, _ | .ifThen _ _ _, _ | .doLoop _ _ _, _ =>
      .cons ⟨_, rfl⟩ .nil
  | .labeled _ [] _, _ | .breaking _ (some _), _ | .continuing _ (some _), _ => .nil
  | .labeled _ (_ :: _) _, _ | .breaking _ none, _ | .continuing _ none, _ => .cons ⟨_, rfl⟩ .nil
  | .attempt _ _ [], _ | .attemptFinally _ _ [_] _, _ => .cons ⟨_, rfl⟩ .nil
  | .attempt _ _ [_], _ | .attemptFinally _ _ [] _, _ => .nil
  | .attempt _ _ (_ :: _ :: _), h => .cons h.2.2.1.headed .nil
  | .attemptFinally _ _ (_ :: _ :: _) _, h => .cons h.2.1.2.1.headed .nil

mutual

theorem stmtViolations_headed :
    (stmt : Stmt) → ClausesNamed stmt → Blames Headed (stmtViolations stmt)
  | .block body, h => stmtsViolations_headed body h
  | .declaration _ _, _ =>
      .append (.cons ⟨_, rfl⟩ .nil) (.flatMap fun item _ => localViolations_headed item)
  | .expression value, _ => exprViolations_headed value
  | .empty _, _ => .cons ⟨_, rfl⟩ .nil
  | .returning _ value, _ => valueViolations_headed value
  | .ifThen _ condition thenPart, h =>
      .append (.cons ⟨_, rfl⟩ .nil)
        (.append (exprViolations_headed condition) (stmtViolations_headed thenPart h))
  | .ifElse _ condition thenPart elsePart, ⟨hthen, helse⟩ =>
      .append (exprViolations_headed condition)
        (.append (stmtViolations_headed thenPart hthen) (stmtViolations_headed elsePart helse))
  | .labeled _ _ body, h => .append (ownStmtViolations_headed _ h) (stmtViolations_headed body h)
  | .breaking _ _, h => ownStmtViolations_headed _ h
  | .continuing _ _, h => ownStmtViolations_headed _ h
  | .whileLoop _ condition body, h =>
      .append (exprViolations_headed condition) (stmtViolations_headed body h)
  | .doLoop _ body condition, h =>
      .append (.cons ⟨_, rfl⟩ .nil)
        (.append (stmtViolations_headed body h) (exprViolations_headed condition))
  | .attempt _ body clauses, h =>
      .append (ownStmtViolations_headed _ h)
        (.append (stmtsViolations_headed body h.1) (clausesViolations_headed clauses h.2))
  | .attemptFinally _ body clauses finalizer, h =>
      .append (ownStmtViolations_headed _ h)
        (.append (stmtsViolations_headed body h.1)
          (.append (clausesViolations_headed clauses h.2.1)
            (stmtsViolations_headed finalizer h.2.2)))

theorem stmtsViolations_headed :
    (stmts : List Stmt) → AllClausesNamed stmts → Blames Headed (stmtsViolations stmts)
  | [], _ => .nil
  | stmt :: stmts, h =>
      .append (stmtViolations_headed stmt h.1) (stmtsViolations_headed stmts h.2)

theorem clauseViolations_headed :
    (clause : CatchClause) → Named clause → Blames Headed (clauseViolations clause)
  | .mk _ _ _ body, h => .append h.ownClauseViolations_headed (stmtsViolations_headed body h.2)

theorem clausesViolations_headed :
    (clauses : List CatchClause) → EachNamed clauses → Blames Headed (clausesViolations clauses)
  | [], _ => .nil
  | clause :: clauses, h =>
      .append (clauseViolations_headed clause h.1) (clausesViolations_headed clauses h.2)

end

/-! ## Declarations -/

/-- A classifier that answers the tag of a kind of functions, or refuses. The phrase
that it blames has a head if all catch clauses of the function do. -/
def Classifier.Reliable (classify : Classifier) : Prop :=
  ∀ function name, DeclarationNamed (.function function) →
    (∃ kind : FunctionKind, classify function name = .ok kind.tag.text) ∨
      ∃ violation, classify function name = .error violation ∧ Headed violation.guilty

theorem Classifier.byName_reliable : byName.Reliable :=
  fun _ name _ => .inl ⟨kindOfName name.text, rfl⟩

theorem parameterViolations_headed (parameter : Parameter) :
    Blames Headed (parameterViolations parameter) := by
  cases parameter with
  | required binder => exact .nil
  | optional binder default => exact .cons ⟨_, rfl⟩ (valueViolations_headed default)

theorem AllClausesNamed.hoist {body : Block} (h : AllClausesNamed body) :
    AllClausesNamed (hoist body).2 := by
  unfold Canon.hoist
  split
  · exact h.2
  · exact h

theorem kindViolations_headed {classify : Classifier} (hclassify : classify.Reliable)
    {function : Function} (hnamed : DeclarationNamed (.function function)) :
    Blames Headed (kindViolations classify function) := by
  unfold kindViolations
  split
  · exact .cons ⟨_, rfl⟩ .nil
  · next name _ =>
    rcases hclassify function name hnamed with ⟨kind, hkind⟩ | ⟨violation, hviolation, hheaded⟩
    · rw [hkind]
      exact .nil
    · rw [hviolation]
      exact .cons hheaded .nil

theorem bodyViolations_headed {type name : Option Name} {parameters : List Parameter} {body : Body}
    (hnamed : DeclarationNamed (.function ⟨type, name, parameters, body⟩)) :
    Blames Headed (bodyViolations body) := by
  cases body with
  | arrow value modifier => exact .cons ⟨_, rfl⟩ (exprViolations_headed value)
  | block block modifier =>
    exact .append (.flatMap fun item _ => localViolations_headed item)
      (stmtsViolations_headed _ (AllClausesNamed.hoist hnamed))

theorem draftFunction_headed {classify : Classifier} (hclassify : classify.Reliable)
    {function : Function} (hnamed : DeclarationNamed (.function function)) {violation : Violation}
    (h : draftFunction none classify function = .error (.violation violation)) :
    Headed violation.guilty := by
  have hblames : Blames Headed (declarationViolations classify (.function function)) :=
    .append (kindViolations_headed hclassify hnamed)
      (.append (.flatMap fun parameter _ => parameterViolations_headed parameter)
        (bodyViolations_headed hnamed))
  have hfirst := draftFunction_failsFirst classify function
  rw [h] at hfirst
  obtain ⟨_, hmem, ⟨⟩⟩ := hfirst.mem
  exact hblames violation hmem

/-- Without a limit a function fails only by a violation. -/
theorem draftFunction_ne_overlong {classify : Classifier} {function : Function}
    {overlong : Text.Overlong} :
    draftFunction none classify function ≠ .error (.overlong overlong) := by
  intro h
  have hfirst := draftFunction_failsFirst classify function
  rw [h] at hfirst
  obtain ⟨_, -, ⟨⟩⟩ := hfirst.mem

theorem classify_of_draftFunction {classify : Classifier} {function : Function} {draft : Draft}
    (h : draftFunction none classify function = .ok draft) :
    ∃ name, classify function name = .ok draft.1 := by
  obtain ⟨type, _ | name, parameters, _ | _⟩ := function <;>
    simp only [draftFunction, bind_eq_ok, mapError_eq_ok, pure_eq_ok, blame_eq_ok] at h
  · obtain ⟨tag, hclassify, -, -, -, -, -, -, rfl⟩ := h
    exact ⟨name, hclassify⟩
  · obtain ⟨tag, -, -, -, h⟩ := h
    exact h.elim

/-- A declaration is refused, if at all, on account of a phrase that has a head. -/
theorem canonDeclaration_cases {classify : Classifier} (hclassify : classify.Reliable)
    {declaration : Declaration} (hnamed : DeclarationNamed declaration) :
    (∃ procedure, canonDeclaration classify declaration = .ok procedure) ∨
      ∃ refusal spot, canonDeclaration classify declaration = .error (.refused refusal) ∧
        refusal.spot = .ok spot := by
  cases declaration with
  | bindings keyword bindings => exact .inr ⟨_, keyword.spot, rfl, rfl⟩
  | function function =>
    simp only [canonDeclaration, canonDeclarationWithin]
    cases hdraft : draftFunction none classify function with
    | error halt =>
      cases halt with
      | violation violation =>
        obtain ⟨spot, hspot⟩ := draftFunction_headed hclassify hnamed hdraft
        exact .inr ⟨_, spot, rfl, hspot⟩
      | overlong overlong => exact absurd hdraft draftFunction_ne_overlong
    | ok draft =>
      obtain ⟨name, hname⟩ := classify_of_draftFunction hdraft
      rcases hclassify function name hnamed with ⟨kind, hkind⟩ | ⟨violation, hviolation, -⟩
      · rw [hname, Except.ok.injEq, ← FunctionKind.ofText?_eq_some] at hkind
        simp only [hkind]
        exact .inl ⟨_, rfl⟩
      · rw [hname] at hviolation
        cases hviolation

end Resumable.Canon
