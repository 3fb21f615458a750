import Mathlib

/-!
# Computations that may fail

A computation of several steps succeeds exactly if each step does, and else it fails as
the first step that fails.
-/

namespace Resumable

variable {ε α β γ : Type}

theorem bind_eq_ok {first : Except ε α} {next : α → Except ε β} {result : β} :
    (first >>= next) = .ok result ↔ ∃ value, first = .ok value ∧ next value = .ok result := by
  cases first <;> simp [Bind.bind, Except.bind]

theorem pure_eq_ok {value result : α} : (pure value : Except ε α) = .ok result ↔ value = result :=
  Except.ok.injEq value result ▸ Iff.rfl

theorem mapError_eq_ok {ν : Type} {leadsTo : ε → ν} {first : Except ε α} {result : α} :
    first.mapError leadsTo = .ok result ↔ first = .ok result := by
  cases first <;> simp [Except.mapError]

theorem ok_bind {value : α} {next : α → Except ε β} :
    ((.ok value : Except ε α) >>= next) = next value := rfl

/-- If `f` succeeds only on the values of `g`, so does `f` on every element of a list. -/
theorem mapM_eq_ok {f : α → Except ε β} {g : γ → α} {r : γ → β}
    (h : ∀ a b, f a = .ok b ↔ ∃ c, a = g c ∧ b = r c) {as : List α} {bs : List β} :
    as.mapM f = .ok bs ↔ ∃ cs : List γ, as = cs.map g ∧ bs = cs.map r := by
  induction as generalizing bs with
  | nil =>
    simp only [List.mapM_nil, pure_eq_ok]
    constructor
    · rintro rfl
      exact ⟨[], rfl, rfl⟩
    · rintro ⟨cs, hcs, rfl⟩
      rw [List.map_eq_nil_iff.mp hcs.symm, List.map_nil]
  | cons a as ih =>
    simp only [List.mapM_cons, bind_eq_ok, pure_eq_ok, h, ih]
    constructor
    · rintro ⟨_, ⟨c, rfl, rfl⟩, _, ⟨cs, rfl, rfl⟩, rfl⟩
      exact ⟨c :: cs, rfl, rfl⟩
    · rintro ⟨cs, hcs, rfl⟩
      obtain ⟨c, cs, rfl, rfl, rfl⟩ := List.map_eq_cons_iff.mp hcs.symm
      exact ⟨r c, ⟨c, rfl, rfl⟩, cs.map r, ⟨cs, rfl, rfl⟩, rfl⟩

/-! ## The first fault -/

/-- A computation fails with the first of some faults, each as the error it leads to, and
succeeds if there are none. -/
def FailsFirst {ν : Type} (leadsTo : ν → ε) (faults : List ν) (result : Except ε α) : Prop :=
  match faults with
  | [] => ∃ value, result = .ok value
  | fault :: _ => result = .error (leadsTo fault)

namespace FailsFirst

variable {ν : Type} {leadsTo : ν → ε} {faults more : List ν} {first : Except ε α}
  {next : α → Except ε β}

theorem ok (value : α) : FailsFirst leadsTo [] (.ok value : Except ε α) :=
  ⟨value, rfl⟩

theorem error (fault : ν) (more : List ν) :
    FailsFirst leadsTo (fault :: more) (.error (leadsTo fault) : Except ε α) :=
  rfl

theorem bind (h : FailsFirst leadsTo faults first)
    (hnext : ∀ value, FailsFirst leadsTo more (next value)) :
    FailsFirst leadsTo (faults ++ more) (first >>= next) := by
  cases faults with
  | nil =>
    obtain ⟨value, rfl⟩ := h
    exact hnext value
  | cons fault faults =>
    obtain rfl : first = .error (leadsTo fault) := h
    rfl

theorem map (h : FailsFirst leadsTo faults first) (make : α → β) :
    FailsFirst leadsTo faults (first >>= fun value => pure (make value)) := by
  have hbind := h.bind fun value => (ok (make value) : FailsFirst leadsTo [] _)
  rwa [List.append_nil] at hbind

theorem mapM {f : α → Except ε β} {faultsOf : α → List ν} {as : List α}
    (h : ∀ a ∈ as, FailsFirst leadsTo (faultsOf a) (f a)) :
    FailsFirst leadsTo (as.flatMap faultsOf) (as.mapM f) := by
  induction as with
  | nil => exact ok []
  | cons a as ih =>
    obtain ⟨hfirst, hrest⟩ := List.forall_mem_cons.1 h
    rw [List.flatMap_cons, List.mapM_cons]
    exact hfirst.bind fun value => (ih hrest).map _

theorem mem {error : ε} (h : FailsFirst leadsTo faults (.error error : Except ε α)) :
    ∃ fault ∈ faults, error = leadsTo fault := by
  cases faults with
  | nil =>
    obtain ⟨value, hvalue⟩ := h
    cases hvalue
  | cons fault faults =>
    cases h
    exact ⟨fault, List.mem_cons_self, rfl⟩

end FailsFirst

/-! ## The same fault in other words -/

/-- A computation gives what another one gives, and tells its faults in other words. -/
def FailsAs (reword : ε → ε) (first second : Except ε α) : Prop :=
  second = first.mapError reword

namespace FailsAs

variable {reword : ε → ε} {first second : Except ε α} {next next' : α → Except ε β}

theorem ok (value : α) : FailsAs reword (.ok value) (.ok value) :=
  rfl

theorem error (fault : ε) :
    FailsAs reword (.error fault : Except ε α) (.error (reword fault)) :=
  rfl

theorem bind (h : FailsAs reword first second)
    (hnext : ∀ value, FailsAs reword (next value) (next' value)) :
    FailsAs reword (first >>= next) (second >>= next') := by
  obtain rfl : second = first.mapError reword := h
  cases first with
  | ok value => exact hnext value
  | error fault => rfl

theorem map (h : FailsAs reword first second) (make : α → β) :
    FailsAs reword (first >>= fun value => pure (make value))
      (second >>= fun value => pure (make value)) :=
  h.bind fun value => ok (make value)

theorem mapM {f : α → Except ε β} {g : α → α} {as : List α}
    (h : ∀ a ∈ as, FailsAs reword (f a) (f (g a))) :
    FailsAs reword (as.mapM f) ((as.map g).mapM f) := by
  induction as with
  | nil => exact ok []
  | cons a as ih =>
    obtain ⟨hfirst, hrest⟩ := List.forall_mem_cons.1 h
    rw [List.map_cons, List.mapM_cons, List.mapM_cons]
    exact hfirst.bind fun value => (ih hrest).map _

/-- A change of the errors that goes along with the other words keeps the relation. -/
theorem mapError {ν : Type} {reword' : ν → ν} {leadsTo : ε → ν}
    (hleads : ∀ fault, leadsTo (reword fault) = reword' (leadsTo fault))
    (h : FailsAs reword first second) :
    FailsAs reword' (first.mapError leadsTo) (second.mapError leadsTo) := by
  obtain rfl : second = first.mapError reword := h
  cases first with
  | ok value => rfl
  | error fault => exact congrArg Except.error (hleads fault)

theorem eq_ok_iff {value : α} (h : FailsAs reword first second) :
    second = .ok value ↔ first = .ok value := by
  obtain rfl : second = first.mapError reword := h
  cases first <;> simp [Except.mapError]

end FailsAs

end Resumable
