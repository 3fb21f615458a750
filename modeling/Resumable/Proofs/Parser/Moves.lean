import Resumable.Parser.Run
import Resumable.Proofs.Parser.Stations

/-!
# The moves of the parser

What the parser does next is decided by the productions that may be under way
after the symbols on its stack: a token that one of them expects is read, and
one that is complete before what comes next is made a phrase.
-/

namespace Resumable.Parser

open Grammar

/-! ## What a state decides -/

theorem Has.of_mem {items : List Item} (hproper : Proper items) {item : Item} (h : item ∈ items) :
    ∃ next, Has items item.production item.rest next := by
  obtain ⟨next, hnext⟩ := hproper item h
  exact ⟨next, item.ahead, h, hnext⟩

/-- Every item of a state is possible. -/
theorem possible_of_mem {symbols : List Symbol} {item : Item}
    (h : item ∈ (stateAfter symbols).items) :
    ∃ next, Possible symbols item.production item.rest next := by
  obtain ⟨next, hnext⟩ := Has.of_mem (proper_stateAfter symbols) h
  exact ⟨next, has_stateAfter.1 hnext⟩

theorem expects_stateAfter {symbols : List Symbol} {production : Production} {kind : Terminal}
    {rest : List Symbol} {next : Next}
    (h : Possible symbols production (.terminal kind :: rest) next) :
    (stateAfter symbols).expects kind = true := by
  obtain ⟨ahead, hmem, -⟩ := has_stateAfter.2 h
  exact List.any_eq_true.2 ⟨_, hmem, by simp⟩

/-- The production that is complete before what comes next. -/
theorem complete?_stateAfter {symbols : List Symbol} {production : Production} {next : Next} :
    (stateAfter symbols).complete? next = some production ↔
      Possible symbols production [] next := by
  have hfound : ∀ {production : Production}, (stateAfter symbols).complete? next = some production →
      Possible symbols production [] next := by
    intro production h
    obtain ⟨item, hfind, rfl⟩ := Option.map_eq_some_iff.1 h
    have hitem := List.find?_some hfind
    rw [Bool.and_eq_true, Item.isComplete, List.isEmpty_iff] at hitem
    obtain ⟨production, rest, ahead⟩ := item
    obtain ⟨rfl, hnext⟩ := hitem
    exact has_stateAfter.1 ⟨ahead, List.mem_of_find?_eq_some hfind, hnext⟩
  refine ⟨hfound, fun h => ?_⟩
  obtain ⟨ahead, hmem, hnext⟩ := has_stateAfter.2 h
  cases hcomplete : (stateAfter symbols).complete? next with
  | none =>
    rw [State.complete?, Option.map_eq_none_iff, List.find?_eq_none] at hcomplete
    exact absurd (Ahead.contains_iff.2 hnext) (by simpa [Item.isComplete] using hcomplete _ hmem)
  | some other => rw [(hfound hcomplete).complete_unique h]

/-- A production that is forced is complete, no other is, and no token is expected. -/
structure Forced (symbols : List Symbol) (production : Production) : Prop where
  complete : ∃ next, Possible symbols production [] next
  unique : ∀ {other : Production} {next : Next}, Possible symbols other [] next → other = production
  unexpected : ∀ {other : Production} {kind : Terminal} {rest : List Symbol} {next : Next},
    ¬ Possible symbols other (.terminal kind :: rest) next

theorem forced_of_forced? {symbols : List Symbol} {production : Production}
    (h : (stateAfter symbols).forced? = some production) : Forced symbols production := by
  rw [State.forced?] at h
  split at h
  · cases h
  · rename_i htoken
    split at h
    · rename_i item hfilter
      cases h
      have hcomplete : ∀ other, other ∈ (stateAfter symbols).items ∧ other.isComplete = true ↔
          other = item := by
        intro other
        rw [← List.mem_filter, hfilter, List.mem_singleton]
      obtain ⟨hmem, hrest⟩ := (hcomplete item).2 rfl
      refine ⟨?_, ?_, ?_⟩
      · rw [Item.isComplete, List.isEmpty_iff] at hrest
        exact hrest ▸ possible_of_mem hmem
      · intro other next hother
        obtain ⟨ahead, hother, -⟩ := has_stateAfter.2 hother
        exact congrArg Item.production ((hcomplete ⟨other, [], ahead⟩).1 ⟨hother, rfl⟩)
      · intro other kind rest next hother
        obtain ⟨ahead, hother, -⟩ := has_stateAfter.2 hother
        exact htoken (List.any_eq_true.2 ⟨_, hother, rfl⟩)
    · cases h

/-! ## Stacks -/

namespace Stack

/-- A stack on which every frame has the state that belongs there. -/
inductive Built : Stack → Prop where
  | nil : Built []
  | push {stack : Stack} (h : Built stack) {symbol : Symbol} (derivation : Derivation symbol) :
      Built (stack.push derivation)

@[simp] theorem symbols_push (stack : Stack) {symbol : Symbol} (derivation : Derivation symbol) :
    (stack.push derivation).symbols = stack.symbols ++ [symbol] := by
  simp [symbols, push]

theorem Built.state {stack : Stack} (h : Built stack) : stack.state = stateAfter stack.symbols := by
  induction h with
  | nil => rfl
  | push h derivation ih =>
    rw [symbols_push, stateAfter_append, ← ih]
    rfl

/-- The tokens that a stack derives. -/
def yield : Stack → List Token
  | [] => []
  | frame :: stack => yield stack ++ frame.derivation.yield

@[simp] theorem yield_push (stack : Stack) {symbol : Symbol} (derivation : Derivation symbol) :
    (stack.push derivation).yield = stack.yield ++ derivation.yield := rfl

/-- Put the derivations of a row of symbols on a stack. -/
def pushAll (stack : Stack) : {symbols : List Symbol} → Forest symbols → Stack
  | _, .nil => stack
  | _, .cons first rest => (stack.push first).pushAll rest

theorem symbols_pushAll (stack : Stack) {symbols : List Symbol} (forest : Forest symbols) :
    (stack.pushAll forest).symbols = stack.symbols ++ symbols := by
  induction symbols generalizing stack with
  | nil =>
    cases forest
    simp [pushAll]
  | cons symbol symbols ih =>
    cases forest with
    | cons first rest => simp [pushAll, ih]

theorem yield_pushAll (stack : Stack) {symbols : List Symbol} (forest : Forest symbols) :
    (stack.pushAll forest).yield = stack.yield ++ forest.yield := by
  induction symbols generalizing stack with
  | nil =>
    cases forest
    simp [pushAll, Forest.yield]
  | cons symbol symbols ih =>
    cases forest with
    | cons first rest => simp [pushAll, ih, Forest.yield]

theorem Built.pushAll {stack : Stack} (h : Built stack) {symbols : List Symbol}
    (forest : Forest symbols) : Built (stack.pushAll forest) := by
  induction symbols generalizing stack with
  | nil =>
    cases forest
    exact h
  | cons symbol symbols ih =>
    cases forest with
    | cons first rest => exact ih (h.push first) rest

/-- What has been put on a stack can be taken from it. -/
theorem pop_pushAll (stack : Stack) {symbols : List Symbol} (forest : Forest symbols) :
    pop symbols (stack.pushAll forest) = some (forest, stack) := by
  induction symbols generalizing stack with
  | nil =>
    cases forest
    rfl
  | cons symbol symbols ih =>
    cases forest with
    | cons first rest => simp [Stack.pushAll, pop, ih, push]

/-- What is taken from a stack has been put on it. -/
theorem Built.pop {symbols : List Symbol} {stack below : Stack} {forest : Forest symbols}
    (hbuilt : Built stack) (h : Stack.pop symbols stack = some (forest, below)) :
    Built below ∧ stack = below.pushAll forest := by
  induction symbols generalizing below with
  | nil =>
    cases h
    exact ⟨hbuilt, rfl⟩
  | cons symbol symbols ih =>
    rw [Stack.pop] at h
    obtain ⟨⟨rest, upper⟩, hpop, hframe⟩ := Option.bind_eq_some_iff.1 h
    obtain ⟨hupper, rfl⟩ := ih hpop
    cases hupper with
    | nil => cases hframe
    | push hbelow derivation =>
      simp only [Stack.push] at hframe
      split at hframe
      · rename_i heq
        subst heq
        cases hframe
        exact ⟨hbelow, rfl⟩
      · cases hframe

/-! ## Moves -/

/-- What comes next, if that is known. -/
def upcoming : List Token → Token.Ending → Option Next
  | token :: _, _ => some (some token.kind)
  | [], .finished _ => some none
  | [], .stray _ _ => none

theorem upcoming_append {tokens : List Token} {ending : Token.Ending} {next : Next}
    (h : upcoming tokens ending = some next) (others : List Token) :
    upcoming (others ++ tokens) ending = some (nextOf others next) := by
  cases others with
  | nil => exact h
  | cons token others => rfl

/-- What is not forced is decided by what comes next. -/
theorem move_of_not_forced {stack : Stack} (hforced : stack = [] ∨ stack.state.forced? = none)
    {tokens : List Token} {ending : Token.Ending} {next : Next}
    (h : upcoming tokens ending = some next) :
    stack.move tokens ending = stack.state.move next := by
  unfold move
  split
  · rename_i production hstate
    rcases hforced with hforced | hforced
    · cases hforced
    · rw [hstate] at hforced
      cases hforced
  · cases tokens with
    | cons token tokens =>
      cases h
      rfl
    | nil =>
      cases ending with
      | finished last =>
        cases h
        rfl
      | stray => cases h

/-- A token that is expected is read. -/
theorem Built.move_shift {stack : Stack} (hbuilt : Built stack) {production : Production}
    {token : Token} {rest : List Symbol} {next : Next}
    (h : Possible stack.symbols production (.terminal token.kind :: rest) next)
    (tokens : List Token) (ending : Token.Ending) :
    stack.move (token :: tokens) ending = .shift := by
  have hforced : stack.state.forced? = none := by
    rw [hbuilt.state, Option.eq_none_iff_forall_ne_some]
    exact fun other hother => (forced_of_forced? hother).unexpected h
  have hcomplete : (stateAfter stack.symbols).complete? (some token.kind) = none := by
    rw [Option.eq_none_iff_forall_ne_some]
    exact fun other hother => (complete?_stateAfter.1 hother).not_expected h
  rw [move_of_not_forced (.inr hforced) rfl, hbuilt.state, State.move, hcomplete]
  simp [expects_stateAfter h]

/-- A production that is complete before what comes next is made a phrase. -/
theorem Built.move_reduce {stack : Stack} (hbuilt : Built stack) {production : Production}
    {next : Next} (h : Possible stack.symbols production [] next) {tokens : List Token}
    {ending : Token.Ending} (hnext : upcoming tokens ending = some next) :
    stack.move tokens ending = .reduce production := by
  have hmove : stack.state.move next = .reduce production := by
    have hcomplete := complete?_stateAfter.2 h
    rw [← hbuilt.state] at hcomplete
    simp only [State.move, hcomplete]
  -- a forced move is the same one, since no other production is complete
  by_cases hforced : stack = [] ∨ stack.state.forced? = none
  · rw [move_of_not_forced hforced hnext, hmove]
  · rw [not_or, ← ne_eq, ← ne_eq, Option.ne_none_iff_exists'] at hforced
    obtain ⟨hne, other, hother⟩ := hforced
    obtain ⟨frame, below, rfl⟩ := List.exists_cons_of_ne_nil hne
    have hsame : production = other := by
      rw [hbuilt.state] at hother
      exact (forced_of_forced? hother).unique h
    simp only [move, hother, hsame]

/-- A phrase is made of a production that is forced, or complete before what comes
next. -/
theorem Built.of_move_reduce {stack : Stack} (hbuilt : Built stack) {production : Production}
    {tokens : List Token} {ending : Token.Ending}
    (h : stack.move tokens ending = .reduce production) :
    Forced stack.symbols production ∨
      ∃ next, upcoming tokens ending = some next ∧ Possible stack.symbols production [] next := by
  have hcomplete : ∀ next, stack.state.move next = .reduce production →
      Possible stack.symbols production [] next := by
    intro next hmove
    rw [State.move.eq_def, hbuilt.state] at hmove
    split at hmove
    · rename_i other hother
      cases hmove
      exact complete?_stateAfter.1 hother
    · split at hmove
      · split at hmove <;> cases hmove
      · cases hmove
  unfold move at h
  split at h
  · rename_i other hother
    cases h
    rw [hbuilt.state] at hother
    exact .inl (forced_of_forced? hother)
  · right
    split at h
    · exact ⟨_, rfl, hcomplete _ h⟩
    · exact ⟨_, rfl, hcomplete _ h⟩
    · cases h

end Stack

end Resumable.Parser
