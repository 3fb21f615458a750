import Mathlib
import Resumable.Ir.Terminal

/-!
# Paths through a form

Control goes from a form to one of the forms that may come next. A form is terminal
exactly if it is an expression and each path from it, followed as far as it leads, goes
through expressions only, binds names to nothing but values, and ends in a call.
-/

namespace Resumable.Ir

/-- The forms that may come next: what follows a value or a continuation, the body of a
continuation, either branch, and the body of a function that is bound to a name. -/
def successors : Ir → List Ir
  | .letValue _ (.function _ _ _ body) rest => [body, rest]
  | .letValue _ _ rest => [rest]
  | .letContinuation _ _ body rest => [body, rest]
  | .branch _ thenPart elsePart => [thenPart, elsePart]
  | _ => []

/-- A path from a form, followed until nothing comes next. -/
inductive Path : Ir → List Ir → Prop where
  | stop {ir : Ir} (last : ir.successors = []) : Path ir [ir]
  | step {ir next : Ir} {path : List Ir} (mem : next ∈ ir.successors) (rest : Path next path) :
      Path ir (ir :: path)

/-- Whether a form is a call of a function or of a continuation. -/
def isCall : Ir → Bool
  | .callFunction .. | .callContinuation .. => true
  | _ => false

/-- If a form binds a name to something, then to a value. -/
def BindsValue (ir : Ir) : Prop :=
  ∀ (name : String) (bound rest : Ir), ir = .letValue name bound rest → bound.isValue = true

/-- A path goes through expressions that bind names to values, and ends in a call. -/
structure EndsInCall (path : List Ir) : Prop where
  expressions : ∀ form ∈ path, form.isExpression = true
  values : ∀ form ∈ path, form.BindsValue
  call : ∀ last ∈ path.getLast?, last.isCall = true

/-! ## One step -/

theorem sizeOf_lt_of_mem_successors {ir next : Ir} (h : next ∈ ir.successors) :
    sizeOf next < sizeOf ir := by
  unfold successors at h
  split at h <;> simp only [List.mem_cons, List.not_mem_nil, or_false] at h
  · rcases h with rfl | rfl <;> simp +arith
  · subst h
    simp +arith
  · rcases h with rfl | rfl <;> simp +arith
  · rcases h with rfl | rfl <;> simp +arith

/-- What holds of a form if it holds of all that may come next holds of every form. -/
theorem induction_successors {motive : Ir → Prop}
    (step : ∀ ir : Ir, (∀ next ∈ ir.successors, motive next) → motive ir) (ir : Ir) : motive ir :=
  step ir fun next _ => induction_successors step next
termination_by sizeOf ir
decreasing_by exact sizeOf_lt_of_mem_successors ‹_›

/-- A form is terminal if it is an expression, binds nothing but a value, and all that may
come next is terminal. -/
theorem isTerminal_iff_successors (ir : Ir) :
    ir.isTerminal = true ↔ ir.isExpression = true ∧ ir.BindsValue ∧
      ∀ next ∈ ir.successors, next.isTerminal = true := by
  cases ir with
  | letValue name bound rest =>
    have hbinds : (letValue name bound rest).BindsValue ↔ bound.isValue = true := by
      simp [BindsValue]
    rw [hbinds]
    cases bound <;>
      simp [isTerminal, isExpression, isValue, endsInCalls, successors, Bool.and_eq_true]
  | letContinuation | branch | callFunction | callContinuation =>
    simp [isTerminal, isExpression, endsInCalls, successors, BindsValue, Bool.and_eq_true]
  | constant | function | await | declaration => simp [isTerminal, isExpression]

/-- An expression after which nothing comes is a call. -/
theorem isCall_of_successors_eq_nil {ir : Ir} (hexpression : ir.isExpression = true)
    (hlast : ir.successors = []) : ir.isCall = true := by
  cases ir with
  | letValue name bound rest => cases bound <;> simp [successors] at hlast
  | letContinuation | branch => simp [successors] at hlast
  | callFunction | callContinuation => rfl
  | constant | function | await | declaration => cases hexpression

/-! ## Whole paths -/

theorem Path.eq_cons {ir : Ir} {path : List Ir} (h : Path ir path) :
    ∃ more, path = ir :: more := by
  cases h with
  | stop => exact ⟨[], rfl⟩
  | step => exact ⟨_, rfl⟩

theorem Path.mem {ir : Ir} {path : List Ir} (h : Path ir path) : ir ∈ path := by
  obtain ⟨more, rfl⟩ := h.eq_cons
  exact List.mem_cons_self

theorem exists_path (ir : Ir) : ∃ path, Path ir path := by
  induction ir using induction_successors with
  | step ir ih =>
    cases hnext : ir.successors with
    | nil => exact ⟨[ir], .stop hnext⟩
    | cons next others =>
      have hmem : next ∈ ir.successors := hnext ▸ List.mem_cons_self
      obtain ⟨path, hpath⟩ := ih next hmem
      exact ⟨ir :: path, .step hmem hpath⟩

/-- A path ends in a call if its first form is an expression that binds nothing but a value
and the rest of it ends in a call. -/
theorem endsInCall_cons_iff {ir next : Ir} {path : List Ir} (hpath : Path next path) :
    EndsInCall (ir :: path) ↔ ir.isExpression = true ∧ ir.BindsValue ∧ EndsInCall path := by
  obtain ⟨more, rfl⟩ := hpath.eq_cons
  constructor
  · rintro ⟨hexpressions, hvalues, hcall⟩
    obtain ⟨hexpression, hexpressions⟩ := List.forall_mem_cons.1 hexpressions
    obtain ⟨hvalue, hvalues⟩ := List.forall_mem_cons.1 hvalues
    exact ⟨hexpression, hvalue, hexpressions, hvalues, by rwa [List.getLast?_cons_cons] at hcall⟩
  · rintro ⟨hexpression, hvalue, hexpressions, hvalues, hcall⟩
    exact ⟨List.forall_mem_cons.2 ⟨hexpression, hexpressions⟩,
      List.forall_mem_cons.2 ⟨hvalue, hvalues⟩, by rwa [List.getLast?_cons_cons]⟩

/-- Each path from a terminal form ends in a call. -/
theorem Path.endsInCall {ir : Ir} {path : List Ir} (h : Path ir path)
    (hterminal : ir.isTerminal = true) : EndsInCall path := by
  induction h with
  | @stop ir hlast =>
    obtain ⟨hexpression, hvalue, -⟩ := (isTerminal_iff_successors ir).1 hterminal
    have hcall := isCall_of_successors_eq_nil hexpression hlast
    exact ⟨by simpa using hexpression, by simpa using hvalue, by simpa using hcall⟩
  | @step ir next path hmem hpath ih =>
    obtain ⟨hexpression, hvalue, hnext⟩ := (isTerminal_iff_successors ir).1 hterminal
    exact (endsInCall_cons_iff hpath).2 ⟨hexpression, hvalue, ih (hnext next hmem)⟩

/-- A form whose paths all end in calls is terminal. -/
theorem isTerminal_of_paths (ir : Ir) (h : ∀ path, Path ir path → EndsInCall path) :
    ir.isTerminal = true := by
  induction ir using induction_successors with
  | step ir ih =>
    -- the form itself is on one of its paths
    obtain ⟨path, hpath⟩ := exists_path ir
    have hends := h path hpath
    refine (isTerminal_iff_successors ir).2
      ⟨hends.expressions ir hpath.mem, hends.values ir hpath.mem, fun next hnext => ?_⟩
    refine ih next hnext fun rest hrest => ?_
    exact ((endsInCall_cons_iff hrest).1 (h (ir :: rest) (.step hnext hrest))).2.2

/-- A form is terminal exactly if it is an expression and each path from it goes through
expressions only, binds names to values only, and ends in a call. -/
theorem isTerminal_iff_paths (ir : Ir) :
    ir.isTerminal = true ↔
      ir.isExpression = true ∧ ∀ path, Path ir path → EndsInCall path := by
  constructor
  · intro h
    exact ⟨((isTerminal_iff_successors ir).1 h).1, fun path hpath => hpath.endsInCall h⟩
  · rintro ⟨-, h⟩
    exact isTerminal_of_paths ir h

/-- A path may leave through the body of a function that is bound on the way. -/
example :
    let leak : Ir :=
      .letValue "g" (.function [] "k" "h" (.constant 3)) (.callContinuation "k" ["g"])
    leak.isTerminal = false ∧ Path leak [leak, .constant 3] :=
  ⟨rfl, .step List.mem_cons_self (.stop rfl)⟩

end Resumable.Ir
