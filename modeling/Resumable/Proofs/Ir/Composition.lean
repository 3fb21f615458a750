import Resumable.Proofs.Ir.Scope

/-!
# Scopes and programs put together

To bring more names into scope is to strike them from what is unbound. So what is
unbound in two programs together is what is unbound in each of them, without the
names of the functions of the other one.
-/

namespace Resumable

/-- The names of two scopes taken together. -/
def Joins (joined scope others : List String) : Prop :=
  ∀ name, name ∈ joined ↔ name ∈ scope ∨ name ∈ others

section Joins

variable {joined scope others : List String}

/-- Names that are bound on the way come on top of either scope. -/
theorem Joins.inside (h : Joins joined scope others) (names : List String) :
    Joins (names ++ joined) (names ++ scope) others := by
  intro name
  rw [List.mem_append, List.mem_append, h name, or_assoc]

theorem outOfScope_eq_filter (scope names : List String) :
    outOfScope scope names = names.filter fun name => name ∉ scope := by
  simp [outOfScope]

theorem outOfScope_joins (h : Joins joined scope others) (names : List String) :
    outOfScope joined names = outOfScope others (outOfScope scope names) := by
  simp only [outOfScope_eq_filter, List.filter_filter]
  refine List.filter_congr fun name _ => ?_
  simp [h name, Bool.and_comm]

theorem outOfScope_append (scope names more : List String) :
    outOfScope scope (names ++ more) = outOfScope scope names ++ outOfScope scope more :=
  List.filter_append ..

theorem outOfScope_flatMap {α : Type} (scope : List String) (items : List α)
    (names : α → List String) :
    outOfScope scope (items.flatMap names) = items.flatMap fun it => outOfScope scope (names it) :=
  List.filter_flatMap ..

end Joins

/-- More names in scope are struck from what is unbound in a form. A binder on the way
hides a name from both scopes alike. -/
theorem Ir.unbound_joins {joined scope others : List String} (h : Joins joined scope others)
    (ir : Ir) : ir.unbound joined = outOfScope others (ir.unbound scope) := by
  induction ir using induction_parts generalizing joined scope with
  | step ir ih =>
    have hparts : ∀ part ∈ ir.parts, part.body.unbound (part.names ++ joined) =
        outOfScope others (part.body.unbound (part.names ++ scope)) :=
      fun part hpart => ih part hpart (h.inside part.names)
    rw [unbound_eq_unboundByParts, unbound_eq_unboundByParts, unboundByParts, unboundByParts,
      outOfScope_append, outOfScope_flatMap, outOfScope_joins h, List.flatMap_congr hparts]

namespace Program

theorem unbound_eq (program : Program) :
    program.unbound = program.flatMap fun it => it.toIr.unbound program.functionNames := by
  rw [unbound, visit_eq, List.nil_append]

/-- More functions are struck from what is unbound in the declarations of a program. -/
theorem flatMap_unbound_joins {program : Program} {joined others : List String}
    (h : Joins joined program.functionNames others) :
    (program.flatMap fun it => it.toIr.unbound joined) = outOfScope others program.unbound := by
  rw [unbound_eq, outOfScope_flatMap]
  exact List.flatMap_congr fun it _ => it.toIr.unbound_joins h

theorem joins_functionNames_left (program more : Program) :
    Joins (functionNames (program ++ more)) program.functionNames more.functionNames := by
  intro name
  rw [functionNames, List.map_append, List.mem_append]
  rfl

theorem joins_functionNames_right (program more : Program) :
    Joins (functionNames (program ++ more)) more.functionNames program.functionNames :=
  fun name => (joins_functionNames_left program more name).trans or_comm

end Program

/-- What is unbound in a form under two scopes together is what is unbound under one of
them, without the names in the other, in the same order and as often. What is unbound
in two programs together is what is unbound in each of them, without the functions of
the other. -/
theorem unbound_compositional :
    (∀ (ir : Ir) (scope others : List String),
      ir.unbound (scope ∪ others) = (ir.unbound scope).filter fun name => name ∉ others) ∧
    ∀ program more : Program, Program.unbound (program ++ more) =
      (program.unbound.filter fun name => name ∉ more.functionNames) ++
        more.unbound.filter fun name => name ∉ program.functionNames := by
  constructor
  · intro ir scope others
    have hjoins : Joins (scope ∪ others) scope others := fun _ => List.mem_union_iff
    rw [ir.unbound_joins hjoins, outOfScope_eq_filter]
  · intro program more
    rw [Program.unbound_eq, List.flatMap_append,
      Program.flatMap_unbound_joins (Program.joins_functionNames_left program more),
      Program.flatMap_unbound_joins (Program.joins_functionNames_right program more),
      outOfScope_eq_filter, outOfScope_eq_filter]

/-- The first function hides `g`, which the second one lacks until it is declared. A name
that neither program declares stays unbound wherever it is used. -/
example :
    let first : Program :=
      [⟨"f", ["g"], "r", "t", .callFunction "g" ["h", "h"] "r" "t"⟩,
        ⟨"k", [], "r", "t", .callFunction "g" ["f"] "r" "t"⟩]
    let second : Program := [⟨"g", [], "r", "t", .callFunction "k" ["h"] "r" "t"⟩]
    first.unbound = ["h", "h", "g"] ∧ second.unbound = ["k", "h"] ∧
      Program.unbound (first ++ second) = ["h", "h", "h"] := by
  decide

end Resumable
