import Resumable.Parser.Ahead
import Resumable.Proofs.Grammar.Enumeration

/-!
# Sets of what may come next

Look-ahead sets, openings and tables by phrase are ordered by what they contain.
Steps that only add to a table, repeated often enough, end with a table that
none of them changes.
-/

namespace Resumable.Parser

open Grammar

/-! ## Sets -/

theorem Next.place_lt (next : Next) : next.place < nextCount := by
  cases next with
  | none => decide
  | some kind => cases kind <;> decide

theorem Next.place_inj {next next' : Next} : next.place = next'.place ↔ next = next' := by
  cases next <;> cases next' <;> simp [Next.place, Terminal.ctorIdx_inj]

theorem Next.exists_place {n : Nat} (h : n < nextCount) : ∃ next : Next, next.place = n := by
  cases n with
  | zero => exact ⟨none, rfl⟩
  | succ n =>
    have hkinds : ∀ n < 31, (Terminal.ofNat n).ctorIdx = n := by decide
    exact ⟨some (Terminal.ofNat n), congrArg (· + 1) (hkinds n (Nat.lt_of_succ_lt_succ h))⟩

namespace Ahead

instance : Membership Next Ahead :=
  ⟨fun ahead next => ahead.contains next = true⟩

theorem contains_iff {ahead : Ahead} {next : Next} : ahead.contains next = true ↔ next ∈ ahead :=
  Iff.rfl

/-- The members of a look-ahead set. -/
def members (ahead : Ahead) : Set Next :=
  {next | next ∈ ahead}

theorem members_injective : Function.Injective members := by
  rintro ⟨a⟩ ⟨b⟩ h
  congr 1
  refine BitVec.eq_of_getLsbD_eq fun i hi => ?_
  obtain ⟨next, rfl⟩ := Next.exists_place hi
  exact Bool.eq_iff_iff.2 (Set.ext_iff.1 h next)

instance : PartialOrder Ahead :=
  PartialOrder.lift members members_injective

theorem le_iff_members (a b : Ahead) : a ≤ b ↔ a.members ⊆ b.members :=
  Iff.rfl

@[simp] theorem not_mem_empty (next : Next) : next ∉ empty := by
  simp [← contains_iff, contains, empty]

@[simp] theorem mem_single {next next' : Next} : next ∈ single next' ↔ next = next' := by
  simp [← contains_iff, contains, single, Next.place_lt, Next.place_inj, eq_comm]

@[simp] theorem mem_union {a b : Ahead} {next : Next} : next ∈ a.union b ↔ next ∈ a ∨ next ∈ b := by
  simp [← contains_iff, contains, union]

theorem le_union_left (a b : Ahead) : a ≤ a.union b :=
  fun _ h => mem_union.2 (.inl h)

theorem isEmpty_eq_false {ahead : Ahead} : ahead.isEmpty = false ↔ ∃ next, next ∈ ahead := by
  rw [← Bool.not_eq_true, isEmpty, beq_iff_eq, ← not_forall_not, not_iff_not]
  constructor
  · intro h next hnext
    rw [← contains_iff, contains, h] at hnext
    simp at hnext
  · intro h
    have hempty : ahead = empty := members_injective (by ext next; simp [members, h next])
    rw [hempty]
    rfl

end Ahead

namespace Opening

/-- The things that the texts of a phrase may begin with, and nothing if the empty
text is one of them. -/
def members (opening : Opening) : Set (Option Next)
  | none => opening.vanishes = true
  | some next => next ∈ opening.first

theorem members_injective : Function.Injective members := by
  rintro ⟨vanishes, first⟩ ⟨vanishes', first'⟩ h
  have hvanishes : vanishes = vanishes' := Bool.eq_iff_iff.2 (Set.ext_iff.1 h none)
  have hfirst : first = first' :=
    Ahead.members_injective (Set.ext fun next => Set.ext_iff.1 h (some next))
  rw [hvanishes, hfirst]

instance : PartialOrder Opening :=
  PartialOrder.lift members members_injective

theorem le_iff_members (a b : Opening) : a ≤ b ↔ a.members ⊆ b.members :=
  Iff.rfl

theorem le_iff {a b : Opening} :
    a ≤ b ↔ (a.vanishes = true → b.vanishes = true) ∧ a.first ≤ b.first :=
  ⟨fun h => ⟨@h none, fun next => @h (some next)⟩, fun h next => match next with
    | none => h.1
    | some next => @h.2 next⟩

theorem union_le {a b c : Opening} (ha : a ≤ c) (hb : b ≤ c) : a.union b ≤ c := by
  rw [le_iff] at ha hb ⊢
  refine ⟨fun h => ?_, fun next h => ?_⟩
  · rcases Bool.or_eq_true_iff.1 h with h | h
    · exact ha.1 h
    · exact hb.1 h
  · rcases Ahead.mem_union.1 h with h | h
    · exact ha.2 h
    · exact hb.2 h

theorem le_union_left (a b : Opening) : a ≤ a.union b :=
  le_iff.2 ⟨fun h => Bool.or_eq_true_iff.2 (.inl h), fun _ h => Ahead.mem_union.2 (.inl h)⟩

theorem le_union_right (a b : Opening) : b ≤ a.union b :=
  le_iff.2 ⟨fun h => Bool.or_eq_true_iff.2 (.inr h), fun _ h => Ahead.mem_union.2 (.inr h)⟩

/-- The more is known of phrases, the more a row of symbols is known to begin with. -/
theorem ofSymbols_mono {known known' : Nonterminal → Opening}
    (h : ∀ phrase, known phrase ≤ known' phrase) (symbols : List Symbol) :
    ofSymbols known symbols ≤ ofSymbols known' symbols := by
  induction symbols with
  | nil => exact le_rfl
  | cons symbol symbols ih =>
    cases symbol with
    | terminal kind => exact le_rfl
    | nonterminal phrase =>
      obtain ⟨hvanishes, hfirst⟩ := le_iff.1 (h phrase)
      obtain ⟨ihvanishes, ihfirst⟩ := le_iff.1 ih
      simp only [ofSymbols]
      split
      · rename_i hknown
        rw [if_pos (hvanishes hknown), le_iff]
        refine ⟨ihvanishes, fun next hnext => ?_⟩
        rcases Ahead.mem_union.1 hnext with hnext | hnext
        · exact Ahead.mem_union.2 (.inl (hfirst hnext))
        · exact Ahead.mem_union.2 (.inr (ihfirst hnext))
      · rename_i hknown
        rw [le_iff]
        refine ⟨fun hfalse => absurd hfalse hknown, fun next hnext => ?_⟩
        split
        · exact Ahead.mem_union.2 (.inl (hfirst hnext))
        · exact hfirst hnext

end Opening

/-! ## Tables -/

namespace Table

variable {α : Type}

theorem place_inj {phrase phrase' : Nonterminal} :
    place phrase = place phrase' ↔ phrase = phrase' := by
  rw [Fin.ext_iff]
  exact Nonterminal.ctorIdx_inj

theorem exists_place (i : Fin phraseCount) : ∃ phrase, place phrase = i := by
  have hphrases : ∀ i : Fin phraseCount, place (Nonterminal.ofNat i) = i := by decide
  exact ⟨Nonterminal.ofNat i, hphrases i⟩

theorem get_injective : Function.Injective (get : Table α → Nonterminal → α) := by
  rintro ⟨values⟩ ⟨values'⟩ h
  congr 1
  refine Vector.ext fun i hi => ?_
  obtain ⟨phrase, hphrase⟩ := exists_place ⟨i, hi⟩
  have hget := congrFun h phrase
  rw [get, get, hphrase] at hget
  exact hget

@[simp] theorem get_fill (value : α) (phrase : Nonterminal) : (fill value).get phrase = value := by
  simp [get, fill, Vector.get]

theorem get_modify (table : Table α) (phrase phrase' : Nonterminal) (change : α → α) :
    (table.modify phrase change).get phrase' =
      if phrase = phrase' then change (table.get phrase) else table.get phrase' := by
  have hplaces : (place phrase).val = (place phrase').val ↔ phrase = phrase' := by
    rw [← Fin.ext_iff, place_inj]
  exact (Vector.getElem_set (place phrase).isLt (place phrase').isLt).trans
    (if_congr hplaces rfl rfl)

@[simp] theorem get_modify_self (table : Table α) (phrase : Nonterminal) (change : α → α) :
    (table.modify phrase change).get phrase = change (table.get phrase) := by
  rw [get_modify, if_pos rfl]

variable [PartialOrder α]

instance : PartialOrder (Table α) :=
  PartialOrder.lift get get_injective

theorem le_iff {table table' : Table α} :
    table ≤ table' ↔ ∀ phrase, table.get phrase ≤ table'.get phrase :=
  Iff.rfl

theorem le_modify (table : Table α) (phrase : Nonterminal) {change : α → α}
    (h : table.get phrase ≤ change (table.get phrase)) : table ≤ table.modify phrase change := by
  intro phrase'
  rw [get_modify]
  split
  · rename_i heq
    exact heq ▸ h
  · exact le_rfl

/-- A change that stays below what is known already. -/
theorem modify_le {table : Table α} {phrase : Nonterminal} {change : α → α}
    {known : Nonterminal → α} (htable : table.get ≤ known)
    (h : change (table.get phrase) ≤ known phrase) : (table.modify phrase change).get ≤ known := by
  intro phrase'
  rw [get_modify]
  split
  · rename_i heq
    exact heq ▸ h
  · exact htable phrase'

end Table

/-! ## Repeated steps -/

section Repeated

variable {α : Type} [DecidableEq α]

theorem settle_induction {P : α → Prop} {grow : α → α} (hgrow : ∀ value, P value → P (grow value))
    (rounds : Nat) {value : α} (h : P value) : P (settle grow rounds value) := by
  induction rounds generalizing value with
  | zero => exact h
  | succ rounds ih =>
    rw [settle]
    split
    · exact h
    · exact ih (hgrow value h)

/-- A step that only adds members, of which there are fewer than rounds, is
repeated until it changes nothing. -/
theorem grow_settle [PartialOrder α] {β : Type} [Finite β] (members : α → Set β)
    (hmembers : ∀ a b, a ≤ b ↔ members a ⊆ members b) {grow : α → α} (hgrow : ∀ a, a ≤ grow a)
    {rounds : Nat} (hrounds : Nat.card β < rounds) (value : α) :
    grow (settle grow rounds value) = settle grow rounds value := by
  suffices h : ∀ rounds value, Nat.card β < (members value).ncard + rounds →
      grow (settle grow rounds value) = settle grow rounds value from
    h rounds value (by omega)
  clear hrounds value rounds
  intro rounds
  induction rounds with
  | zero =>
    intro value hcount
    have := Set.ncard_le_card (members value)
    omega
  | succ rounds ih =>
    intro value hcount
    rw [settle]
    split
    · assumption
    · rename_i hchanged
      -- something new has been found, so one round less is needed
      have hlt : members value ⊂ members (grow value) := by
        refine ⟨(hmembers _ _).1 (hgrow value), fun hback => hchanged ?_⟩
        exact le_antisymm ((hmembers _ _).2 hback) (hgrow value)
      have := Set.ncard_lt_ncard hlt (Set.toFinite _)
      exact ih (grow value) (by omega)

end Repeated

section Fold

variable {α β : Type} [PartialOrder α] {step : α → β → α}

theorem foldl_le (hstep : ∀ a b, a ≤ step a b) (bs : List β) (a : α) : a ≤ bs.foldl step a := by
  induction bs generalizing a with
  | nil => exact le_rfl
  | cons b bs ih => exact (hstep a b).trans (ih (step a b))

/-- Where steps that only add change nothing all together, none of them does. -/
theorem step_eq_of_foldl_eq (hstep : ∀ a b, a ≤ step a b) {bs : List β} {a : α}
    (h : bs.foldl step a = a) {b : β} (hb : b ∈ bs) : step a b = a := by
  induction bs with
  | nil => cases hb
  | cons c bs ih =>
    have hc : step a c = a :=
      le_antisymm ((foldl_le hstep bs (step a c)).trans h.le) (hstep a c)
    rcases List.mem_cons.1 hb with rfl | hb
    · exact hc
    · rw [List.foldl_cons, hc] at h
      exact ih h hb

end Fold

/-! ## How many things there are -/

theorem Next.place_injective :
    Function.Injective fun next : Next => (⟨next.place, next.place_lt⟩ : Fin nextCount) :=
  fun _ _ h => Next.place_inj.1 (Fin.ext_iff.1 h)

theorem Table.place_injective : Function.Injective Table.place :=
  fun _ _ => Table.place_inj.1

instance : Finite Next :=
  Finite.of_injective _ Next.place_injective

instance : Finite Nonterminal :=
  Finite.of_injective _ Table.place_injective

theorem card_next : Nat.card Next ≤ nextCount := by
  simpa using Nat.card_le_card_of_injective _ Next.place_injective

theorem card_nonterminal : Nat.card Nonterminal ≤ phraseCount := by
  simpa using Nat.card_le_card_of_injective _ Table.place_injective

namespace Table

variable {α β : Type}

/-- The members of all entries of a table. -/
def members (entries : α → Set β) (table : Table α) : Set (Nonterminal × β) :=
  {x | x.2 ∈ entries (table.get x.1)}

variable [DecidableEq α] [PartialOrder α] [Finite β] {entries : α → Set β}

/-- Steps that only add to a table, one for each production, are repeated until
none of them changes anything. -/
theorem step_settle (hentries : ∀ a b, a ≤ b ↔ entries a ⊆ entries b)
    {step : Table α → Production → Table α}
    (hstep : ∀ table production, table ≤ step table production)
    {rounds : Nat} (hrounds : phraseCount * Nat.card β < rounds) (table : Table α)
    {productions : List Production} {production : Production} (hmem : production ∈ productions) :
    step (settle (productions.foldl step) rounds table) production =
      settle (productions.foldl step) rounds table := by
  have hcard : Nat.card (Nonterminal × β) < rounds := by
    rw [Nat.card_prod]
    exact (Nat.mul_le_mul_right _ card_nonterminal).trans_lt hrounds
  have hmembers : ∀ table table' : Table α,
      table ≤ table' ↔ table.members entries ⊆ table'.members entries := by
    intro table table'
    constructor
    · rintro h ⟨phrase, member⟩ hmember
      exact (hentries _ _).1 (h phrase) hmember
    · intro h phrase
      refine (hentries _ _).2 fun member hmember => ?_
      have hx : (phrase, member) ∈ table.members entries := hmember
      exact h hx
  have hfixed := grow_settle _ hmembers (fun table => foldl_le hstep productions table) hcard table
  exact step_eq_of_foldl_eq hstep hfixed hmem

end Table

end Resumable.Parser
