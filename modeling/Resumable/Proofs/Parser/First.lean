import Resumable.Grammar.Derivation
import Resumable.Proofs.Parser.Ahead

/-!
# How derived tokens begin

`openings` is the least account of how phrases begin. Whatever a row of symbols
derives, with something after it, begins with a member of `first`.
-/

namespace Resumable.Parser

open Grammar

/-! ## How phrases begin -/

theorem le_learn (table : Table Opening) (production : Production) :
    table ≤ learn table production :=
  table.le_modify _ (Opening.le_union_left _ _)

/-- What is known of a phrase accounts for each of its productions. -/
theorem ofSymbols_le_openings (production : Production) :
    Opening.ofSymbols openings.get production.rhs ≤ openings.get production.lhs := by
  have hcard : phraseCount * Nat.card (Option Next) < phraseCount * (nextCount + 1) + 1 := by
    rw [Finite.card_option, Nat.lt_succ_iff]
    exact Nat.mul_le_mul_left _ (Nat.succ_le_succ card_next)
  have hlearn : learn openings production = openings := by
    unfold openings
    exact Table.step_settle Opening.le_iff_members le_learn hcard _ production.mem_all
  calc Opening.ofSymbols openings.get production.rhs
      ≤ (learn openings production).get production.lhs := by
        rw [learn, Table.get_modify_self]
        exact Opening.le_union_right _ _
    _ = openings.get production.lhs := by rw [hlearn]

/-- `openings` is the least account of all productions. -/
theorem openings_le {known : Nonterminal → Opening}
    (h : ∀ production : Production, Opening.ofSymbols known production.rhs ≤ known production.lhs) :
    openings.get ≤ known := by
  have hgrow : ∀ (productions : List Production) (table : Table Opening), table.get ≤ known →
      (productions.foldl learn table).get ≤ known := by
    intro productions table htable
    refine List.foldlRecOn (motive := fun table => table.get ≤ known) productions learn htable
      fun table htable production _ => ?_
    refine Table.modify_le htable (Opening.union_le (htable _) ?_)
    exact (Opening.ofSymbols_mono htable _).trans (h production)
  have hfill : (Table.fill (⟨false, .empty⟩ : Opening)).get ≤ known := by
    intro phrase
    rw [Table.get_fill, Opening.le_iff]
    refine ⟨fun hfalse => ?_, fun next hnext => absurd hnext (Ahead.not_mem_empty next)⟩
    cases hfalse
  unfold openings
  exact settle_induction (hgrow Production.all) _ hfill

/-! ## How derived tokens begin -/

/-- What comes next in front of some tokens with something after them. -/
def nextOf : List Token → Next → Next
  | [], after => after
  | token :: _, _ => some token.kind

/-- Whether tokens begin as they may. -/
def Opening.Covers (opening : Opening) : List Token → Prop
  | [] => opening.vanishes = true
  | token :: _ => some token.kind ∈ opening.first

theorem Opening.Covers.mono {opening other : Opening} (h : opening ≤ other) {tokens : List Token}
    (hcovers : opening.Covers tokens) : other.Covers tokens := by
  rw [Opening.le_iff] at h
  cases tokens with
  | nil => exact h.1 hcovers
  | cons token tokens => exact h.2 hcovers

theorem Opening.Covers.nonterminal {known : Nonterminal → Opening} {phrase : Nonterminal}
    {symbols : List Symbol} {tokens others : List Token} (hfirst : (known phrase).Covers tokens)
    (hrest : (Opening.ofSymbols known symbols).Covers others) :
    (Opening.ofSymbols known (.nonterminal phrase :: symbols)).Covers (tokens ++ others) := by
  rw [Opening.ofSymbols]
  cases tokens with
  | nil =>
    have hvanishes : (known phrase).vanishes = true := hfirst
    rw [if_pos hvanishes]
    cases others with
    | nil => exact hrest
    | cons token others => exact Ahead.mem_union.2 (.inr hrest)
  | cons token tokens =>
    split
    · exact Ahead.mem_union.2 (.inl hfirst)
    · exact hfirst

mutual

/-- The tokens of a phrase begin as the phrase may. -/
theorem openings_covers : {symbol : Symbol} → (derivation : Derivation symbol) →
    ∀ {phrase : Nonterminal}, symbol = .nonterminal phrase →
      (openings.get phrase).Covers derivation.yield
  | _, .token _, _, h => by cases h
  | _, .apply production children, _, h => by
    cases h
    exact (ofSymbols_covers children).mono (ofSymbols_le_openings production)

/-- The tokens of a row of symbols begin as the row may. -/
theorem ofSymbols_covers : {symbols : List Symbol} → (forest : Forest symbols) →
    (Opening.ofSymbols openings.get symbols).Covers forest.yield
  | _, .nil => rfl
  | _, .cons (.token token) _ => by
    simp [Opening.ofSymbols, Forest.yield, Derivation.yield, Opening.Covers]
  | _, .cons (.apply production children) rest =>
    .nonterminal (openings_covers (.apply production children) rfl) (ofSymbols_covers rest)

end

/-! ## Look-ahead after a row of symbols -/

theorem mem_first {symbols : List Symbol} {after : Ahead} {next : Next} :
    next ∈ first symbols after ↔
      next ∈ (Opening.ofSymbols openings.get symbols).first ∨
        (Opening.ofSymbols openings.get symbols).vanishes = true ∧ next ∈ after := by
  rw [first]
  split <;> simp [*]

/-- The look-ahead comes from one of the things that may stand after the row. -/
theorem mem_first_iff {symbols : List Symbol} {after : Ahead} (hafter : ∃ next, next ∈ after)
    {next : Next} :
    next ∈ first symbols after ↔ ∃ last ∈ after, next ∈ first symbols (.single last) := by
  obtain ⟨any, hany⟩ := hafter
  simp only [mem_first, Ahead.mem_single]
  constructor
  · rintro (hfirst | ⟨hvanishes, hnext⟩)
    · exact ⟨any, hany, .inl hfirst⟩
    · exact ⟨next, hnext, .inr ⟨hvanishes, rfl⟩⟩
  · rintro ⟨last, hlast, hfirst | ⟨hvanishes, rfl⟩⟩
    · exact .inl hfirst
    · exact .inr ⟨hvanishes, hlast⟩

/-- What comes next before the tokens of a row of symbols. -/
theorem nextOf_mem_first {symbols : List Symbol} (forest : Forest symbols) (after : Next) :
    nextOf forest.yield after ∈ first symbols (.single after) := by
  have hcovers := ofSymbols_covers forest
  rw [mem_first, Ahead.mem_single]
  generalize forest.yield = tokens at hcovers ⊢
  cases tokens with
  | nil => exact .inr ⟨hcovers, rfl⟩
  | cons token tokens => exact .inl hcovers

end Resumable.Parser
