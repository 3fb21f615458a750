import Resumable.Parser.State
import Resumable.Proofs.Parser.First

/-!
# Possible items

Which productions may be under way after some symbols is defined by rules, apart
from any set of items: a production of the whole text is under way at its start,
a production goes on by a symbol, and one that expects a phrase brings along the
productions of that phrase. The state after some symbols holds exactly the items
that these rules give.
-/

namespace Resumable.Parser

open Grammar

/-! ## Predictions -/

/-- What may follow a phrase, given what may follow the phrases that are expected. -/
inductive Predicted (expected : Nonterminal → Next → Prop) : Nonterminal → Next → Prop where
  | expected {phrase : Nonterminal} {next : Next} (h : expected phrase next) :
      Predicted expected phrase next
  | leading {production : Production} {phrase : Nonterminal} {rest : List Symbol}
      {last next : Next} (whole : Predicted expected production.lhs last)
      (leads : production.rhs = .nonterminal phrase :: rest)
      (follows : next ∈ first rest (.single last)) : Predicted expected phrase next

namespace Predictions

theorem mem_expect {predictions : Predictions} {symbols : List Symbol} {ahead : Ahead}
    {phrase : Nonterminal} {next : Next} :
    next ∈ (predictions.expect symbols ahead).get phrase ↔
      next ∈ predictions.get phrase ∨
        ∃ rest, symbols = .nonterminal phrase :: rest ∧ next ∈ first rest ahead := by
  cases symbols with
  | nil => simp [expect]
  | cons symbol symbols =>
    cases symbol with
    | terminal kind => simp [expect]
    | nonterminal phrase' =>
      rw [expect, Table.get_modify]
      split
      · rename_i heq
        subst heq
        simp
      · rename_i hne
        simp [hne]

theorem mem_lookAt {predictions : Predictions} {production : Production} {phrase : Nonterminal}
    {next : Next} :
    next ∈ (predictions.lookAt production).get phrase ↔
      next ∈ predictions.get phrase ∨
        ∃ rest, production.rhs = .nonterminal phrase :: rest ∧
          ∃ last ∈ predictions.get production.lhs, next ∈ first rest (.single last) := by
  rw [lookAt]
  cases hempty : (predictions.get production.lhs).isEmpty with
  | true =>
    have hnone : ¬ ∃ last, last ∈ predictions.get production.lhs := by
      rw [← Ahead.isEmpty_eq_false, hempty]
      exact Bool.noConfusion
    simp only [not_exists] at hnone
    simp [hnone]
  | false =>
    simp only [Bool.false_eq_true, if_false, mem_expect,
      mem_first_iff (Ahead.isEmpty_eq_false.1 hempty)]

theorem mem_of_le {predictions predictions' : Predictions} (h : predictions ≤ predictions')
    {phrase : Nonterminal} {next : Next} (hnext : next ∈ predictions.get phrase) :
    next ∈ predictions'.get phrase :=
  h phrase hnext

theorem le_lookAt (predictions : Predictions) (production : Production) :
    predictions ≤ predictions.lookAt production :=
  fun _ _ h => mem_lookAt.2 (.inl h)

theorem le_close (predictions : Predictions) : predictions ≤ predictions.close := by
  have hgrow : ∀ (productions : List Production) (table : Predictions), predictions ≤ table →
      predictions ≤ productions.foldl lookAt table :=
    fun productions table h => h.trans (foldl_le le_lookAt productions table)
  unfold close
  exact settle_induction (hgrow Production.all) _ le_rfl

theorem lookAt_close (predictions : Predictions) (production : Production) :
    predictions.close.lookAt production = predictions.close := by
  have hcard : phraseCount * Nat.card Next < phraseCount * nextCount + 1 :=
    Nat.lt_succ_of_le (Nat.mul_le_mul_left _ card_next)
  unfold close
  exact Table.step_settle Ahead.le_iff_members le_lookAt hcard _ production.mem_all

/-- Closing gives the predictions that follow, and only those. -/
theorem mem_close {predictions : Predictions} {phrase : Nonterminal} {next : Next} :
    next ∈ predictions.close.get phrase ↔
      Predicted (fun phrase next => next ∈ predictions.get phrase) phrase next := by
  constructor
  · have hgrow : ∀ (productions : List Production) (table : Predictions),
        (∀ phrase next, next ∈ table.get phrase →
          Predicted (fun phrase next => next ∈ predictions.get phrase) phrase next) →
        ∀ phrase next, next ∈ (productions.foldl lookAt table).get phrase →
          Predicted (fun phrase next => next ∈ predictions.get phrase) phrase next := by
      intro productions
      induction productions with
      | nil => exact fun _ h => h
      | cons production productions ih =>
        intro table h
        refine ih _ fun phrase next hnext => ?_
        rcases mem_lookAt.1 hnext with hnext | ⟨rest, leads, last, hlast, follows⟩
        · exact h phrase next hnext
        · exact .leading (h _ last hlast) leads follows
    unfold close
    exact settle_induction (hgrow Production.all) _ (fun _ _ h => .expected h) phrase next
  · intro h
    induction h with
    | expected h => exact mem_of_le predictions.le_close h
    | leading _ leads follows ih =>
      rw [← lookAt_close predictions, mem_lookAt]
      exact .inr ⟨_, leads, _, ih, follows⟩

theorem mem_items {predictions : Predictions} {item : Item} :
    item ∈ predictions.items ↔
      item.rest = item.production.rhs ∧ item.ahead = predictions.get item.production.lhs ∧
        ∃ next, next ∈ item.ahead := by
  obtain ⟨production, rest, ahead⟩ := item
  simp only [items, List.mem_filterMap, Production.mem_all, true_and]
  constructor
  · rintro ⟨production', h⟩
    split at h
    · cases h
    · rename_i hempty
      cases h
      exact ⟨rfl, rfl, Ahead.isEmpty_eq_false.1 (Bool.eq_false_iff.2 hempty)⟩
  · rintro ⟨rfl, rfl, hnext⟩
    exact ⟨production, by rw [Ahead.isEmpty_eq_false.2 hnext]; rfl⟩

end Predictions

/-! ## States -/

/-- Something may come after every item. -/
def Proper (items : List Item) : Prop :=
  ∀ item ∈ items, ∃ next, next ∈ item.ahead

/-- Whether a production is under way, with a row of symbols still to come and
something after it. -/
def Has (items : List Item) (production : Production) (rest : List Symbol) (next : Next) : Prop :=
  ∃ ahead, ⟨production, rest, ahead⟩ ∈ items ∧ next ∈ ahead

theorem has_append {items others : List Item} {production : Production} {rest : List Symbol}
    {next : Next} :
    Has (items ++ others) production rest next ↔
      Has items production rest next ∨ Has others production rest next := by
  simp only [Has, List.mem_append, or_and_right, exists_or]

theorem has_items_close {predictions : Predictions} {production : Production} {rest : List Symbol}
    {next : Next} :
    Has predictions.close.items production rest next ↔
      rest = production.rhs ∧
        Predicted (fun phrase next => next ∈ predictions.get phrase) production.lhs next := by
  simp only [Has, Predictions.mem_items, ← Predictions.mem_close]
  constructor
  · rintro ⟨_, ⟨rfl, rfl, -⟩, hnext⟩
    exact ⟨rfl, hnext⟩
  · rintro ⟨rfl, hnext⟩
    exact ⟨_, ⟨rfl, rfl, next, hnext⟩, hnext⟩

theorem proper_items (predictions : Predictions) : Proper predictions.items :=
  fun _ h => (Predictions.mem_items.1 h).2.2

theorem proper_initial : Proper State.initial.items :=
  proper_items _

theorem has_initial {production : Production} {rest : List Symbol} {next : Next} :
    Has State.initial.items production rest next ↔
      rest = production.rhs ∧
        Predicted (fun phrase next => phrase = .unit ∧ next = none) production.lhs next := by
  have hstart : ∀ (phrase : Nonterminal) (next : Next),
      next ∈ ((Table.fill Ahead.empty).modify .unit fun _ => .single none).get phrase ↔
        phrase = .unit ∧ next = none := by
    intro phrase next
    rw [Table.get_modify]
    split
    · rename_i heq
      simp [← heq]
    · rename_i hne
      simp [Ne.symm hne]
  simp only [State.initial, has_items_close, hstart]

theorem mem_foldl_expect {kernel : List Item} (hproper : Proper kernel) {table : Predictions}
    {phrase : Nonterminal} {next : Next} :
    next ∈ (kernel.foldl (fun predictions item =>
        Predictions.expect predictions item.rest item.ahead) table).get phrase ↔
      next ∈ table.get phrase ∨
        ∃ production rest last, Has kernel production (.nonterminal phrase :: rest) last ∧
          next ∈ first rest (.single last) := by
  induction kernel generalizing table with
  | nil => simp [Has]
  | cons item kernel ih =>
    obtain ⟨hitem, hkernel⟩ := List.forall_mem_cons.1 hproper
    rw [List.foldl_cons, ih hkernel, Predictions.mem_expect, or_assoc]
    refine or_congr_right ?_
    constructor
    · rintro (⟨rest, hrest, hnext⟩ | ⟨production, rest, last, ⟨ahead, hmem, hlast⟩, hnext⟩)
      · obtain ⟨last, hlast, hnext⟩ := (mem_first_iff hitem).1 hnext
        exact ⟨item.production, rest, last, ⟨item.ahead, by simp [← hrest], hlast⟩, hnext⟩
      · exact ⟨production, rest, last, ⟨ahead, List.mem_cons_of_mem _ hmem, hlast⟩, hnext⟩
    · rintro ⟨production, rest, last, ⟨ahead, hmem, hlast⟩, hnext⟩
      rcases List.mem_cons.1 hmem with rfl | hmem
      · exact .inl ⟨rest, rfl, (mem_first_iff hitem).2 ⟨last, hlast, hnext⟩⟩
      · exact .inr ⟨production, rest, last, ⟨ahead, hmem, hlast⟩, hnext⟩

theorem has_ofKernel {kernel : List Item} (hproper : Proper kernel) {production : Production}
    {rest : List Symbol} {next : Next} :
    Has (State.ofKernel kernel).items production rest next ↔
      Has kernel production rest next ∨ rest = production.rhs ∧
        Predicted (fun phrase next => ∃ production rest last,
          Has kernel production (.nonterminal phrase :: rest) last ∧
            next ∈ first rest (.single last)) production.lhs next := by
  simp only [State.ofKernel, has_append, has_items_close, mem_foldl_expect hproper, Table.get_fill,
    Ahead.not_mem_empty, false_or]

theorem advance_eq_some {symbol : Symbol} {item item' : Item} :
    item.advance symbol = some item' ↔ item = { item' with rest := symbol :: item'.rest } := by
  obtain ⟨production, rest, ahead⟩ := item
  cases rest with
  | nil => simp [Item.advance]
  | cons next rest =>
    simp only [Item.advance]
    split
    · rename_i heq
      subst heq
      cases item'
      simp
    · rename_i hne
      simp [hne]

theorem has_advance {items : List Item} {symbol : Symbol} {production : Production}
    {rest : List Symbol} {next : Next} :
    Has (items.filterMap (Item.advance symbol)) production rest next ↔
      Has items production (symbol :: rest) next := by
  simp only [Has, List.mem_filterMap, advance_eq_some, exists_eq_right]

theorem Proper.advance {items : List Item} (h : Proper items) (symbol : Symbol) :
    Proper (items.filterMap (Item.advance symbol)) := by
  intro item hitem
  obtain ⟨item', hmem, hadvance⟩ := List.mem_filterMap.1 hitem
  rw [advance_eq_some] at hadvance
  have hahead := h item' hmem
  rwa [hadvance] at hahead

theorem Proper.goto {state : State} (h : Proper state.items) (symbol : Symbol) :
    Proper (state.goto symbol).items := by
  intro item hitem
  rcases List.mem_append.1 hitem with hitem | hitem
  · exact h.advance symbol item hitem
  · exact proper_items _ item hitem

/-! ## The items that are possible after some symbols -/

/-- Whether a production may be under way after some symbols, with a row of symbols
still to come and something after it. -/
inductive Possible : List Symbol → Production → List Symbol → Next → Prop where
  | whole {production : Production} (h : production.lhs = .unit) :
      Possible [] production production.rhs none
  | advance {before : List Symbol} {production : Production} {symbol : Symbol}
      {rest : List Symbol} {next : Next} (h : Possible before production (symbol :: rest) next) :
      Possible (before ++ [symbol]) production rest next
  | expect {before : List Symbol} {production expected : Production} {rest : List Symbol}
      {last next : Next}
      (h : Possible before production (.nonterminal expected.lhs :: rest) last)
      (follows : next ∈ first rest (.single last)) : Possible before expected expected.rhs next

/-- The state after some symbols. -/
def stateAfter (symbols : List Symbol) : State :=
  symbols.foldl State.goto .initial

@[simp] theorem stateAfter_append (symbols : List Symbol) (symbol : Symbol) :
    stateAfter (symbols ++ [symbol]) = (stateAfter symbols).goto symbol := by
  simp [stateAfter]

theorem proper_stateAfter (symbols : List Symbol) : Proper (stateAfter symbols).items := by
  induction symbols using List.reverseRecOn with
  | nil => exact proper_initial
  | append_singleton symbols symbol ih =>
    rw [stateAfter_append]
    exact ih.goto symbol

theorem Possible.of_predicted {before : List Symbol} {expected : Nonterminal → Next → Prop}
    (h : ∀ (production : Production) (next : Next), expected production.lhs next →
      Possible before production production.rhs next)
    {production : Production} {next : Next} (hpredicted : Predicted expected production.lhs next) :
    Possible before production production.rhs next := by
  generalize hphrase : production.lhs = phrase at hpredicted
  induction hpredicted generalizing production with
  | expected hexpected => exact h production _ (hphrase ▸ hexpected)
  | leading _ leads follows ih =>
    have hleader := ih rfl
    rw [leads, ← hphrase] at hleader
    exact .expect hleader follows

/-- The state after some symbols has exactly the possible items. -/
theorem has_stateAfter {symbols : List Symbol} {production : Production} {rest : List Symbol}
    {next : Next} :
    Has (stateAfter symbols).items production rest next ↔
      Possible symbols production rest next := by
  induction symbols using List.reverseRecOn generalizing production rest next with
  | nil =>
    rw [show stateAfter [] = .initial from rfl]
    constructor
    · intro h
      obtain ⟨rfl, hpredicted⟩ := has_initial.1 h
      refine .of_predicted (fun production next hstart => ?_) hpredicted
      obtain ⟨hunit, rfl⟩ := hstart
      exact .whole hunit
    · intro h
      -- before anything has been read, no production has gone on
      generalize hsymbols : ([] : List Symbol) = symbols at h
      induction h with
      | whole hunit => exact has_initial.2 ⟨rfl, .expected ⟨hunit, rfl⟩⟩
      | advance => simp at hsymbols
      | expect _ follows ih =>
        obtain ⟨hrhs, hpredicted⟩ := has_initial.1 (ih hsymbols)
        exact has_initial.2 ⟨rfl, .leading hpredicted hrhs.symm follows⟩
  | append_singleton symbols symbol ih =>
    have hproper := (proper_stateAfter symbols).advance symbol
    rw [stateAfter_append, State.goto, has_ofKernel hproper]
    simp only [has_advance, ih]
    constructor
    · rintro (h | ⟨rfl, hpredicted⟩)
      · exact .advance h
      · refine .of_predicted ?_ hpredicted
        rintro production next ⟨leader, rest, last, hleader, follows⟩
        exact .expect (.advance hleader) follows
    · intro h
      generalize hsymbols : symbols ++ [symbol] = symbols' at h
      induction h with
      | whole => simp at hsymbols
      | advance h =>
        obtain ⟨rfl, hsymbol⟩ := List.append_inj' hsymbols rfl
        cases hsymbol
        exact .inl h
      | expect _ follows ih =>
        -- what expects the phrase has gone on by the last symbol, or is itself predicted
        refine .inr ⟨rfl, ?_⟩
        rcases ih hsymbols with h | ⟨hrhs, hpredicted⟩
        · exact .expected ⟨_, _, _, h, follows⟩
        · exact .leading hpredicted hrhs.symm follows

end Resumable.Parser
