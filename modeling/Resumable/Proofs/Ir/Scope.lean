import Mathlib
import Resumable.Ir.Scope

/-!
# The uses that a scope checker finds

Where a name is used, and what is bound there, is told by the way that leads to the
use from the whole form: each form on the way binds names in the part that the way
takes. A walk through the form finds just the uses of names that are neither in scope
at the start nor bound on the way, and it finds them in order of appearance.
-/

namespace Resumable

/-! ## Uses and binders -/

/-- A part of a form, and the names that the form binds in that part. -/
structure Ir.Part where
  names : List String
  body : Ir

/-- A use of a name in a form: the way to it, as the numbers of the parts to enter one
after the other, and its number among the names that are used where the way ends. -/
structure Occurrence where
  path : List Nat
  index : Nat
  name : String

/-- A use appears before another one. Ways are compared like words in a dictionary, so
that the names a form uses itself come before those in its parts. -/
def Occurrence.Before (first second : Occurrence) : Prop :=
  first.path < second.path ∨ first.path = second.path ∧ first.index < second.index

/-- A use in a numbered part of a form, seen from the form. -/
def Occurrence.under (number : Nat) (it : Occurrence) : Occurrence :=
  { it with path := number :: it.path }

theorem Occurrence.Before.under {number : Nat} {first second : Occurrence}
    (h : first.Before second) : (first.under number).Before (second.under number) := by
  rcases h with hpath | ⟨hpath, hindex⟩
  · exact .inl (List.cons_lt_cons_iff.2 (.inr ⟨rfl, hpath⟩))
  · exact .inr ⟨congrArg (number :: ·) hpath, hindex⟩

namespace Ir

/-- The names that a form uses itself, in order. -/
def uses : Ir → List String
  | .await awaited normalTo errorTo => [awaited, normalTo, errorTo]
  | .callFunction callee arguments returnTo throwTo => callee :: arguments ++ [returnTo, throwTo]
  | .callContinuation callee arguments => callee :: arguments
  | .branch condition _ _ => [condition]
  | .constant _ | .function .. | .letValue .. | .letContinuation .. | .declaration .. => []

/-- The parts of a form, in order. A function binds its parameters and continuations in
its body, a value its name in what follows, and a continuation its name in both parts
but its parameters only in its body. -/
def parts : Ir → List Part
  | .function parameters returnTo throwTo body => [⟨parameters ++ [returnTo, throwTo], body⟩]
  | .letValue name bound rest => [⟨[], bound⟩, ⟨[name], rest⟩]
  | .letContinuation name parameters body rest => [⟨parameters ++ [name], body⟩, ⟨[name], rest⟩]
  | .branch _ thenPart elsePart => [⟨[], thenPart⟩, ⟨[], elsePart⟩]
  | .declaration _ parameters returnTo throwTo body =>
      [⟨parameters ++ [returnTo, throwTo], body⟩]
  | .constant _ | .await .. | .callFunction .. | .callContinuation .. => []

/-- The form to which a way leads. -/
def at? (ir : Ir) : List Nat → Option Ir
  | [] => some ir
  | number :: path => ir.parts[number]?.bind fun part => part.body.at? path

/-- The names that are bound on a way. -/
def boundOn (ir : Ir) : List Nat → List String
  | [] => []
  | number :: path =>
      match ir.parts[number]? with
      | some part => part.names ++ part.body.boundOn path
      | none => []

/-- A name is used in a form. -/
def Occurs (ir : Ir) (it : Occurrence) : Prop :=
  ∃ form, ir.at? it.path = some form ∧ form.uses[it.index]? = some it.name

/-- A use of a name that is neither in scope at the start nor bound on the way. -/
structure Unbound (scope : List String) (ir : Ir) (it : Occurrence) : Prop where
  occurs : ir.Occurs it
  not_inScope : it.name ∉ scope
  not_bound : it.name ∉ ir.boundOn it.path

/-! ## A walk, one form at a time -/

/-- What holds of a form if it holds of its parts holds of every form. -/
theorem induction_parts {motive : Ir → Prop}
    (step : ∀ ir : Ir, (∀ part ∈ ir.parts, motive part.body) → motive ir) (ir : Ir) :
    motive ir := by
  induction ir with
  | constant | await | callFunction | callContinuation => exact step _ (by simp [parts])
  | function _ _ _ _ ih | declaration _ _ _ _ _ ih => exact step _ (by simpa [parts] using ih)
  | letValue _ _ _ ih ih' | letContinuation _ _ _ _ ih ih' | branch _ _ _ ih ih' =>
    exact step _ (by simpa [parts] using ⟨ih, ih'⟩)

end Ir

/-- A walk leaves the scope as it was and adds some names, which depend on the scope. -/
def ScopeChecker.Adds (walk : ScopeChecker → ScopeChecker) (added : List String → List String) :
    Prop :=
  ∀ checker, walk checker =
    { checker with unbound := checker.unbound ++ added checker.inScope }

namespace ScopeChecker

theorem adds_nothing : Adds id fun _ => [] := by
  intro checker
  simp

theorem adds_use (names : List String) : Adds (·.use names) (outOfScope · names) :=
  fun _ => rfl

section Adds

variable {walk next : ScopeChecker → ScopeChecker} {added more : List String → List String}

theorem Adds.inside (h : Adds walk added) (names : List String) :
    Adds (·.inside names walk) fun scope => added (names ++ scope) := by
  intro checker
  simp only [ScopeChecker.inside, h _]

theorem Adds.andThen (h : Adds walk added) (hnext : Adds next more) :
    Adds (fun checker => next (walk checker)) fun scope => added scope ++ more scope := by
  intro checker
  simp only [h _, hnext _, List.append_assoc]

theorem Adds.congr (h : Adds walk added) (hsame : ∀ scope, added scope = more scope) :
    Adds walk more := by
  intro checker
  rw [h checker, hsame]

end Adds

end ScopeChecker

namespace Ir

open ScopeChecker (Adds adds_nothing adds_use)

theorem unbound_of_adds {ir : Ir} {added : List String → List String} (h : Adds ir.visit added)
    (scope : List String) : ir.unbound scope = added scope := by
  simp only [unbound, h _, List.nil_append]

theorem adds_unbound_of_adds {ir : Ir} {added : List String → List String}
    (h : Adds ir.visit added) : Adds ir.visit fun scope => ir.unbound scope :=
  h.congr fun scope => (unbound_of_adds h scope).symm

/-- What is unbound in a form, by the names it uses itself and by its parts, in which
more names are in scope. -/
def unboundByParts (ir : Ir) (scope : List String) : List String :=
  outOfScope scope ir.uses ++
    ir.parts.flatMap fun part => part.body.unbound (part.names ++ scope)

/-- A walk notes the names that a form uses itself, and then walks through its parts. -/
theorem adds_unboundByParts (ir : Ir) : Adds ir.visit ir.unboundByParts := by
  induction ir with
  | constant => exact adds_nothing
  | await awaited normalTo errorTo =>
    have h : Adds (await awaited normalTo errorTo).visit _ := adds_use _
    exact h.congr (by simp [unboundByParts, uses, parts])
  | callFunction callee arguments returnTo throwTo =>
    have h : Adds (callFunction callee arguments returnTo throwTo).visit _ := adds_use _
    exact h.congr (by simp [unboundByParts, uses, parts])
  | callContinuation callee arguments =>
    have h : Adds (callContinuation callee arguments).visit _ := adds_use _
    exact h.congr (by simp [unboundByParts, uses, parts])
  | function parameters returnTo throwTo body ih =>
    have h : Adds (function parameters returnTo throwTo body).visit _ :=
      (adds_unbound_of_adds ih).inside _
    exact h.congr (by simp [unboundByParts, uses, parts, outOfScope])
  | declaration name parameters returnTo throwTo body ih =>
    have h : Adds (declaration name parameters returnTo throwTo body).visit _ :=
      (adds_unbound_of_adds ih).inside _
    exact h.congr (by simp [unboundByParts, uses, parts, outOfScope])
  | letValue name bound rest ih ih' =>
    have h : Adds (letValue name bound rest).visit _ :=
      (adds_unbound_of_adds ih).andThen ((adds_unbound_of_adds ih').inside _)
    exact h.congr (by simp [unboundByParts, uses, parts, outOfScope])
  | letContinuation name parameters body rest ih ih' =>
    have h : Adds (letContinuation name parameters body rest).visit _ :=
      ((adds_unbound_of_adds ih).inside _).andThen ((adds_unbound_of_adds ih').inside _)
    exact h.congr (by simp [unboundByParts, uses, parts, outOfScope])
  | branch condition thenPart elsePart ih ih' =>
    have h : Adds (branch condition thenPart elsePart).visit _ :=
      ((adds_use _).andThen (adds_unbound_of_adds ih)).andThen (adds_unbound_of_adds ih')
    exact h.congr (by simp [unboundByParts, uses, parts])

/-- A walk through a form leaves the scope as it was, and adds what is unbound. -/
theorem visit_eq (ir : Ir) (checker : ScopeChecker) : ir.visit checker =
    { checker with unbound := checker.unbound ++ ir.unbound checker.inScope } :=
  adds_unbound_of_adds ir.adds_unboundByParts checker

theorem unbound_eq_unboundByParts (ir : Ir) (scope : List String) :
    ir.unbound scope = ir.unboundByParts scope :=
  unbound_of_adds ir.adds_unboundByParts scope

/-! ## All unbound uses -/

/-- A list of uses says what is unbound in a form: it has each unbound use once, in
order of appearance. -/
structure Lists (ir : Ir) (scope : List String) (found : List Occurrence) : Prop where
  names : found.map (·.name) = ir.unbound scope
  ordered : found.Pairwise Occurrence.Before
  mem_iff : ∀ it, it ∈ found ↔ ir.Unbound scope it

/-- The unbound uses among the names that a form uses itself. -/
def ownUnbound (ir : Ir) (scope : List String) : List Occurrence :=
  (ir.uses.zipIdx.filter fun use => !scope.contains use.1).map fun use => ⟨[], use.2, use.1⟩

theorem ownUnbound_names (ir : Ir) (scope : List String) :
    (ir.ownUnbound scope).map (·.name) = outOfScope scope ir.uses := by
  have h := List.filter_map (f := Prod.fst) (p := fun name => !scope.contains name)
    (l := ir.uses.zipIdx)
  rw [List.zipIdx_map_fst] at h
  rw [ownUnbound, List.map_map, outOfScope, h]
  rfl

theorem ownUnbound_ordered (ir : Ir) (scope : List String) :
    (ir.ownUnbound scope).Pairwise Occurrence.Before := by
  have h : (ir.uses.zipIdx.map Prod.snd).Pairwise (· < ·) := by
    rw [List.zipIdx_map_snd]
    exact List.pairwise_lt_range'
  rw [ownUnbound, List.pairwise_map]
  exact ((List.pairwise_map.1 h).filter _).imp fun hlt => .inr ⟨rfl, hlt⟩

theorem mem_ownUnbound {ir : Ir} {scope : List String} {it : Occurrence} :
    it ∈ ir.ownUnbound scope ↔
      it.path = [] ∧ ir.uses[it.index]? = some it.name ∧ it.name ∉ scope := by
  obtain ⟨path, index, name⟩ := it
  simp [ownUnbound, List.mem_zipIdx_iff_getElem?]
  grind

section Part

variable {ir : Ir} {number : Nat} {part : Part} (h : ir.parts[number]? = some part)
  (path : List Nat)

include h

theorem at?_cons : ir.at? (number :: path) = part.body.at? path := by
  simp only [at?, h, Option.bind_some]

theorem boundOn_cons : ir.boundOn (number :: path) = part.names ++ part.body.boundOn path := by
  simp only [boundOn, h]

end Part

/-- A use is unbound at the top of a form or within one of its parts, where the names
that the form binds there are in scope. -/
theorem unbound_iff {ir : Ir} {scope : List String} {it : Occurrence} :
    ir.Unbound scope it ↔ it ∈ ir.ownUnbound scope ∨
      ∃ (number : Nat) (part : Part) (inner : Occurrence), ir.parts[number]? = some part ∧
        part.body.Unbound (part.names ++ scope) inner ∧ it = inner.under number := by
  constructor
  · rintro ⟨⟨form, hform, huse⟩, hscope, hbound⟩
    obtain ⟨_ | ⟨number, path⟩, index, name⟩ := it
    · cases hform
      exact .inl (mem_ownUnbound.2 ⟨rfl, huse, hscope⟩)
    · obtain ⟨part, hpart, hform⟩ := Option.bind_eq_some_iff.1 hform
      rw [boundOn_cons hpart, List.mem_append, not_or] at hbound
      refine .inr ⟨number, part, ⟨path, index, name⟩, hpart, ⟨⟨form, hform, huse⟩, ?_, ?_⟩, rfl⟩
      · exact mt List.mem_append.1 (not_or.2 ⟨hbound.1, hscope⟩)
      · exact hbound.2
  · rintro (hown | ⟨number, part, inner, hpart, ⟨⟨form, hform, huse⟩, hscope, hbound⟩, rfl⟩)
    · obtain ⟨hpath, huse, hscope⟩ := mem_ownUnbound.1 hown
      exact ⟨⟨ir, by rw [hpath, at?], huse⟩, hscope, by simp [hpath, boundOn]⟩
    · obtain ⟨hnames, hscope⟩ := not_or.1 (mt List.mem_append.2 hscope)
      refine ⟨⟨form, ?_, huse⟩, hscope, ?_⟩
      · rwa [Occurrence.under, at?_cons hpart]
      · rw [Occurrence.under, boundOn_cons hpart, List.mem_append, not_or]
        exact ⟨hnames, hbound⟩

/-- The uses that are listed for each part of a form, seen from the form. -/
def listedInParts (ir : Ir) (found : Part → List Occurrence) : List Occurrence :=
  ir.parts.zipIdx.flatMap fun part => (found part.1).map (.under part.2)

theorem mem_listedInParts {ir : Ir} {found : Part → List Occurrence} {it : Occurrence} :
    it ∈ ir.listedInParts found ↔ ∃ (number : Nat) (part : Part) (inner : Occurrence),
      ir.parts[number]? = some part ∧ inner ∈ found part ∧ it = inner.under number := by
  simp only [listedInParts, List.mem_flatMap, List.mem_map, Prod.exists,
    List.mem_zipIdx_iff_getElem?]
  constructor
  · rintro ⟨part, number, hpart, inner, hinner, rfl⟩
    exact ⟨number, part, inner, hpart, hinner, rfl⟩
  · rintro ⟨number, part, inner, hpart, hinner, rfl⟩
    exact ⟨part, number, hpart, inner, hinner, rfl⟩

theorem listedInParts_names (ir : Ir) (found : Part → List Occurrence) :
    (ir.listedInParts found).map (·.name) =
      ir.parts.flatMap fun part => (found part).map (·.name) := by
  have h : ir.parts = ir.parts.zipIdx.map Prod.fst := (List.zipIdx_map_fst _ _).symm
  conv_rhs => rw [h]
  simp only [listedInParts, List.map_flatMap, List.flatMap_map, List.map_map]
  rfl

theorem listedInParts_ordered {ir : Ir} {found : Part → List Occurrence}
    (h : ∀ part ∈ ir.parts, (found part).Pairwise Occurrence.Before) :
    (ir.listedInParts found).Pairwise Occurrence.Before := by
  have hnumbers : (ir.parts.zipIdx.map Prod.snd).Pairwise (· < ·) := by
    rw [List.zipIdx_map_snd]
    exact List.pairwise_lt_range'
  rw [listedInParts, List.pairwise_flatMap]
  constructor
  · rintro ⟨part, number⟩ hpart
    rw [List.pairwise_map]
    exact (h part (List.fst_mem_of_mem_zipIdx hpart)).imp Occurrence.Before.under
  · refine (List.pairwise_map.1 hnumbers).imp fun hlt => ?_
    simp only [List.forall_mem_map]
    intro first _ second _
    exact .inl (List.cons_lt_cons_iff.2 (.inl hlt))

/-- The uses that are listed for the parts of a form, after those of the form itself. -/
theorem lists_of_parts {ir : Ir} {scope : List String} {found : Part → List Occurrence}
    (h : ∀ part ∈ ir.parts, part.body.Lists (part.names ++ scope) (found part)) :
    ir.Lists scope (ir.ownUnbound scope ++ ir.listedInParts found) where
  names := by
    rw [unbound_eq_unboundByParts, unboundByParts, List.map_append, ownUnbound_names,
      listedInParts_names, List.flatMap_congr fun part hpart => (h part hpart).names]
  ordered := by
    refine List.pairwise_append.2 ⟨ownUnbound_ordered ir scope, ?_, ?_⟩
    · exact listedInParts_ordered fun part hpart => (h part hpart).ordered
    · intro own hown inner hinner
      obtain ⟨number, part, it, -, -, rfl⟩ := mem_listedInParts.1 hinner
      rw [Occurrence.Before, (mem_ownUnbound.1 hown).1]
      exact .inl (List.nil_lt_cons _ _)
  mem_iff it := by
    rw [unbound_iff, List.mem_append, mem_listedInParts]
    refine or_congr_right ⟨?_, ?_⟩
    · rintro ⟨number, part, inner, hpart, hinner, rfl⟩
      exact ⟨number, part, inner, hpart,
        ((h part (List.mem_of_getElem? hpart)).mem_iff inner).1 hinner, rfl⟩
    · rintro ⟨number, part, inner, hpart, hinner, rfl⟩
      exact ⟨number, part, inner, hpart,
        ((h part (List.mem_of_getElem? hpart)).mem_iff inner).2 hinner, rfl⟩

/-- The unbound uses of any form can be listed. -/
theorem exists_lists (ir : Ir) (scope : List String) : ∃ found, ir.Lists scope found := by
  induction ir using induction_parts generalizing scope with
  | step ir ih =>
    choose! found hfound using fun part hpart => ih part hpart (part.names ++ scope)
    exact ⟨_, lists_of_parts hfound⟩

theorem unbound_eq_nil_iff {ir : Ir} {scope : List String} :
    ir.unbound scope = [] ↔
      ∀ it, ir.Occurs it → it.name ∈ ir.boundOn it.path ∨ it.name ∈ scope := by
  obtain ⟨found, hfound⟩ := ir.exists_lists scope
  rw [← hfound.names, List.map_eq_nil_iff, List.eq_nil_iff_forall_not_mem]
  refine forall_congr' fun it => ?_
  rw [hfound.mem_iff]
  constructor
  · intro h hoccurs
    by_contra hnone
    obtain ⟨hbound, hscope⟩ := not_or.1 hnone
    exact h ⟨hoccurs, hscope, hbound⟩
  · rintro h ⟨hoccurs, hscope, hbound⟩
    exact (h hoccurs).elim hbound hscope

end Ir

/-! ## Programs -/

namespace Program

theorem visit_eq (program : Program) (checker : ScopeChecker) : program.visit checker =
    { checker with unbound := checker.unbound ++
        program.flatMap fun it => it.toIr.unbound checker.inScope } := by
  induction program generalizing checker with
  | nil => simp [visit]
  | cons it program ih =>
    rw [visit, List.foldl_cons, ← visit, it.toIr.visit_eq, ih, List.flatMap_cons,
      List.append_assoc]

theorem unbound_eq_nil_iff {program : Program} :
    program.unbound = [] ↔ ∀ it ∈ program, it.toIr.unbound program.functionNames = [] := by
  rw [unbound, visit_eq, List.nil_append, List.flatMap_eq_nil_iff]

end Program

/-- A walk through a form leaves the scope as it was. It adds, in order of appearance and
each of them once, the uses of names that are neither in scope at the start nor bound on
the way to the use. So nothing is unbound in a program exactly if each use is of a name
that is bound on the way to it or that is the name of a function. -/
theorem visit_adds_unbound_uses :
    (∀ (ir : Ir) (checker : ScopeChecker), ∃ found : List Occurrence,
      (ir.visit checker).inScope = checker.inScope ∧
      (ir.visit checker).unbound = checker.unbound ++ found.map (·.name) ∧
      found.Pairwise Occurrence.Before ∧
      ∀ it, it ∈ found ↔ ir.Occurs it ∧ it.name ∉ checker.inScope ∧
        it.name ∉ ir.boundOn it.path) ∧
    ∀ program : Program, program.unbound = [] ↔
      ∀ declaration ∈ program, ∀ it, declaration.toIr.Occurs it →
        it.name ∈ declaration.toIr.boundOn it.path ∨ it.name ∈ program.functionNames := by
  constructor
  · intro ir checker
    obtain ⟨found, hnames, hordered, hmem⟩ := ir.exists_lists checker.inScope
    refine ⟨found, ?_, ?_, hordered, fun it => ?_⟩
    · rw [ir.visit_eq]
    · rw [ir.visit_eq, hnames]
    · rw [hmem]
      exact ⟨fun h => ⟨h.1, h.2, h.3⟩, fun ⟨hoccurs, hscope, hbound⟩ => ⟨hoccurs, hscope, hbound⟩⟩
  · intro program
    simp only [Program.unbound_eq_nil_iff, Ir.unbound_eq_nil_iff]

/-- The parameter of a continuation is unbound where the continuation is called. -/
example : (Ir.letContinuation "loop" ["x"] (.callContinuation "loop" ["x"])
    (.callContinuation "loop" ["x"])).unbound [] = ["x"] := by decide

end Resumable
