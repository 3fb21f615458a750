import Resumable.Proofs.Parser.Moves

/-!
# What the parser accepts

The parser follows any derivation of the tokens, one move for each token and for
each phrase, and the moves that it is given are enough. So it accepts every text
that has a derivation, with that derivation. What it accepts is a derivation of
all tokens.
-/

namespace Resumable.Parser

open Grammar

/-! ## How many moves a derivation takes -/

mutual

/-- The number of tokens and phrases in a derivation. -/
def size {symbol : Symbol} : Derivation symbol → Nat
  | .token _ => 1
  | .apply _ children => sizeAll children + 1

/-- The number of tokens and phrases in some derivations. -/
def sizeAll {symbols : List Symbol} : Forest symbols → Nat
  | .nil => 0
  | .cons first rest => size first + sizeAll rest

end

/-- How many more phrases than seven for each token a symbol may have. -/
def excess : Symbol → Int
  | .terminal _ => -7
  | .nonterminal .unit => 2
  | .nonterminal .declarations | .nonterminal .statements | .nonterminal .parameterSection
  | .nonterminal .argumentSection => 1
  | .nonterminal .declaration => -18
  | .nonterminal .functionDeclaration => -29
  | .nonterminal .formals | .nonterminal .arguments | .nonterminal .block
  | .nonterminal .labels => -12
  | .nonterminal .optionals => -17
  | .nonterminal .optionalParameters | .nonterminal .expr => -4
  | .nonterminal .optionalParameter | .nonterminal .parameters | .nonterminal .statement
  | .nonterminal .bindings | .nonterminal .operand => -5
  | .nonterminal .parameter | .nonterminal .modifier | .nonterminal .unlabeled
  | .nonterminal .binding | .nonterminal .primary => -6
  | .nonterminal .body => -11
  | .nonterminal .label => -13
  | .nonterminal .clauses => -24
  | .nonterminal .clause => -25
  | .nonterminal .expressions => -3

/-- Every phrase takes its share of the tokens of a production. -/
theorem excess_production (production : Production) :
    (production.rhs.map excess).sum + 1 ≤ excess (.nonterminal production.lhs) := by
  cases production <;> decide

mutual

theorem size_le {symbol : Symbol} : (derivation : Derivation symbol) →
    (size derivation : Int) ≤ 8 * derivation.yield.length + excess symbol
  | .token _ => by simp [size, Derivation.yield, excess]
  | .apply production children => by
    have hchildren := sizeAll_le children
    have hproduction := excess_production production
    rw [size, Derivation.yield]
    push_cast
    omega

theorem sizeAll_le {symbols : List Symbol} : (forest : Forest symbols) →
    (sizeAll forest : Int) ≤ 8 * forest.yield.length + (symbols.map excess).sum
  | .nil => by simp [sizeAll, Forest.yield]
  | .cons first rest => by
    have hfirst := size_le first
    have hrest := sizeAll_le rest
    rw [sizeAll, Forest.yield, List.length_append, List.map_cons, List.sum_cons]
    push_cast
    omega

end

/-- The moves that the parser is given are enough for any derivation of a text. -/
theorem size_le_enoughMoves (derivation : Derivation (.nonterminal .unit)) :
    size derivation ≤ enoughMoves derivation.yield.length := by
  have hsize := size_le derivation
  simp only [excess] at hsize
  rw [enoughMoves]
  omega

/-! ## The parser follows derivations -/

/-- The whole text is no part of anything. -/
theorem unit_not_mem_rhs (production : Production) : .nonterminal .unit ∉ production.rhs := by
  cases production <;> decide

theorem Possible.lhs_ne_unit {before : List Symbol} {production : Production} {phrase : Nonterminal}
    {rest : List Symbol} {next : Next}
    (h : Possible before production (.nonterminal phrase :: rest) next) : phrase ≠ .unit := by
  rintro rfl
  exact unit_not_mem_rhs production (h.suffix.subset List.mem_cons_self)

theorem Possible.advanceAll {before : List Symbol} {production : Production}
    {symbols : List Symbol} {next : Next} (h : Possible before production symbols next) :
    Possible (before ++ symbols) production [] next := by
  induction symbols generalizing before with
  | nil => rwa [List.append_nil]
  | cons symbol symbols ih =>
    rw [List.append_cons]
    exact ih h.advance

theorem Stack.reduce_pushAll (stack : Stack) {production : Production}
    (children : Forest production.rhs) (hunit : production.lhs ≠ .unit) :
    (stack.pushAll children).reduce production =
      some (.part (stack.push (.apply production children))) := by
  simp [Stack.reduce, Stack.pop_pushAll, hunit]

mutual

/-- A derivation of a symbol that is expected ends up on the stack. -/
theorem run_derivation : {symbol : Symbol} → (derivation : Derivation symbol) →
    ∀ {stack : Stack}, stack.Built →
    ∀ {production : Production} {rest : List Symbol} {last next : Next},
    Possible stack.symbols production (symbol :: rest) last → next ∈ first rest (.single last) →
    ∀ {tokens : List Token} {ending : Token.Ending}, Stack.upcoming tokens ending = some next →
    ∀ moves : Nat, run (size derivation + moves) stack (derivation.yield ++ tokens) ending =
      run moves (stack.push derivation) tokens ending
  | _, .token token, stack, hbuilt, _, _, _, _, hexpected, _, tokens, ending, _, moves => by
    have hmove := hbuilt.move_shift hexpected tokens ending
    rw [size, Nat.add_comm]
    simp only [Derivation.yield, List.singleton_append, run, hmove]
  | _, .apply production children, stack, hbuilt, _, _, _, _, hexpected, follows, tokens, ending,
      hnext, moves => by
    -- the children are read first; then the production is complete before what comes next
    have hopened := hexpected.expect follows
    have hcomplete := hopened.advanceAll
    rw [← stack.symbols_pushAll children] at hcomplete
    have hmove := (hbuilt.pushAll children).move_reduce hcomplete hnext
    have hreduce := stack.reduce_pushAll children hexpected.lhs_ne_unit
    rw [size, Nat.add_assoc, Derivation.yield, run_forest children hbuilt hopened hnext,
      Nat.add_comm]
    simp only [run, hmove, hreduce]

/-- The derivations of all that a production still expects end up on the stack. -/
theorem run_forest : {symbols : List Symbol} → (forest : Forest symbols) →
    ∀ {stack : Stack}, stack.Built → ∀ {production : Production} {next : Next},
    Possible stack.symbols production symbols next →
    ∀ {tokens : List Token} {ending : Token.Ending}, Stack.upcoming tokens ending = some next →
    ∀ moves : Nat, run (sizeAll forest + moves) stack (forest.yield ++ tokens) ending =
      run moves (stack.pushAll forest) tokens ending
  | _, .nil, _, _, _, _, _, _, _, _, moves => by
    rw [sizeAll, Nat.zero_add, Forest.yield, List.nil_append, Stack.pushAll]
  | _, .cons first rest, stack, hbuilt, _, next, hexpected, tokens, ending, hnext, moves => by
    have hadvanced := hexpected.advance
    rw [← stack.symbols_push first] at hadvanced
    -- to the first one, the tokens of the others are among those that come after it
    have hfollows := nextOf_mem_first rest next
    rw [sizeAll, Forest.yield, Nat.add_assoc, List.append_assoc,
      run_derivation first hbuilt hexpected hfollows (Stack.upcoming_append hnext rest.yield),
      run_forest rest (hbuilt.push first) hadvanced hnext, Stack.pushAll]

end

theorem run_whole {production : Production} (hunit : production.lhs = .unit)
    (children : Forest production.rhs) (last : Source.Spot) (moves : Nat) :
    run (sizeAll children + (moves + 1)) [] children.yield (.finished last) =
      .accepted (hunit ▸ .apply production children) := by
  have hexpected : Possible (Stack.symbols []) production production.rhs none := .whole hunit
  have hcomplete := hexpected.advanceAll
  rw [← Stack.symbols_pushAll [] children] at hcomplete
  have hmove := (Stack.Built.nil.pushAll children).move_reduce hcomplete
    (show Stack.upcoming [] (.finished last) = some none from rfl)
  have hrun := run_forest children .nil hexpected
    (show Stack.upcoming [] (.finished last) = some none from rfl) (moves + 1)
  rw [List.append_nil] at hrun
  rw [hrun]
  simp only [run, hmove, Stack.reduce, Stack.pop_pushAll]
  simp [hunit]

/-- A derivation of a phrase applies one of its productions. -/
theorem exists_apply {phrase : Nonterminal} (derivation : Derivation (.nonterminal phrase)) :
    ∃ (production : Production) (hlhs : production.lhs = phrase) (children : Forest production.rhs),
      derivation = hlhs ▸ .apply production children ∧
        derivation.yield = children.yield ∧ size derivation = sizeAll children + 1 := by
  cases derivation with
  | apply production children => exact ⟨production, rfl, children, rfl, rfl, rfl⟩

/-- The parser accepts any derivation of a text. -/
theorem parse_yield (derivation : Derivation (.nonterminal .unit)) (last : Source.Spot) :
    parse ⟨derivation.yield, .finished last⟩ = .accepted derivation := by
  have hmoves := size_le_enoughMoves derivation
  obtain ⟨production, hunit, children, hderivation, hyield, hsize⟩ := exists_apply derivation
  have henough : enoughMoves derivation.yield.length =
      sizeAll children + (enoughMoves derivation.yield.length - size derivation + 1) := by
    omega
  rw [parse, henough, hyield, run_whole hunit children, hderivation]

/-- A text has at most one derivation. -/
theorem yield_injective {derivation derivation' : Derivation (.nonterminal .unit)}
    (h : derivation.yield = derivation'.yield) : derivation = derivation' := by
  have hparse := parse_yield derivation ⟨0, 0⟩
  rw [h, parse_yield derivation'] at hparse
  exact (Outcome.accepted.inj hparse).symm

/-! ## What is accepted is derived -/

/-- A production of the whole text is under way only from the start to the end. -/
theorem Possible.of_unit {before : List Symbol} {production : Production} {rest : List Symbol}
    {next : Next} (h : Possible before production rest next) (hunit : production.lhs = .unit) :
    before ++ rest = production.rhs ∧ next = none := by
  induction h with
  | whole => exact ⟨rfl, rfl⟩
  | advance _ ih =>
    obtain ⟨hrhs, hnext⟩ := ih hunit
    exact ⟨by rw [List.append_assoc, List.singleton_append, hrhs], hnext⟩
  | expect h => exact absurd hunit h.lhs_ne_unit

/-- The end of the text is never forced: one more declaration may follow. -/
theorem not_forced_unit {before : List Symbol} {production : Production}
    (hunit : production.lhs = .unit) : ¬ Forced before production := by
  intro hforced
  obtain ⟨next, hcomplete⟩ := hforced.complete
  obtain ⟨hbefore, rfl⟩ := hcomplete.of_unit hunit
  have honly : ∀ production ∈ Production.all, production.lhs = .unit → production = .unitOf := by
    decide
  obtain rfl := honly production production.mem_all hunit
  rw [List.append_nil] at hbefore
  subst hbefore
  have hempty : (none : Next) ∈ first [] (.single none) :=
    mem_first.2 (.inr ⟨rfl, Ahead.mem_single.2 rfl⟩)
  have hwhole : Possible [] .unitOf [.nonterminal .declarations] none := .whole rfl
  have hmore : Possible [] .moreDeclarations
      [.nonterminal .declarations, .nonterminal .declaration] none := hwhole.expect hempty
  have hvariables : Possible [.nonterminal .declarations] .topLevelVariables
      [.terminal .kwVar, .nonterminal .bindings, .terminal .semicolon] none :=
    hmore.advance.expect hempty
  exact hforced.unexpected hvariables

theorem Stack.refuse_ne_accepted (stack : Stack) (tokens : List Token) (ending : Token.Ending)
    (derivation : Derivation (.nonterminal .unit)) :
    stack.refuse tokens ending ≠ .accepted derivation := by
  cases tokens <;> cases ending <;> exact Outcome.noConfusion

theorem yield_cast {phrase phrase' : Nonterminal} (h : phrase = phrase')
    (derivation : Derivation (.nonterminal phrase)) :
    (h ▸ derivation : Derivation (.nonterminal phrase')).yield = derivation.yield := by
  subst h
  rfl

/-- A phrase is made of the derivations on top of the stack. -/
theorem Stack.Built.of_reduce_part {stack next : Stack} (hbuilt : stack.Built)
    {production : Production} (h : stack.reduce production = some (.part next)) :
    ∃ (below : Stack) (children : Forest production.rhs), below.Built ∧
      stack = below.pushAll children ∧ next = below.push (.apply production children) := by
  rw [Stack.reduce] at h
  obtain ⟨⟨children, below⟩, hpop, hpart⟩ := Option.bind_eq_some_iff.1 h
  obtain ⟨hbelow, rfl⟩ := hbuilt.pop hpop
  simp only at hpart
  split at hpart
  · cases hpart
  · cases hpart
    exact ⟨below, children, hbelow, rfl, rfl⟩

/-- A phrase made on the stack derives what its parts did. -/
theorem Stack.Built.reduce_part {stack next : Stack} (hbuilt : stack.Built)
    {production : Production} (h : stack.reduce production = some (.part next)) :
    next.Built ∧ next.yield = stack.yield := by
  obtain ⟨below, children, hbelow, rfl, rfl⟩ := hbuilt.of_reduce_part h
  refine ⟨hbelow.push _, ?_⟩
  rw [Stack.yield_push, Stack.yield_pushAll, Derivation.yield]

/-- The whole text is made of the whole stack, and only at its end. -/
theorem Stack.Built.of_move_whole {stack : Stack} (hbuilt : stack.Built) {production : Production}
    {tokens : List Token} {ending : Token.Ending}
    (hmove : stack.move tokens ending = .reduce production) (hunit : production.lhs = .unit) :
    stack.symbols = production.rhs ∧ upcoming tokens ending = some none := by
  rcases hbuilt.of_move_reduce hmove with hforced | ⟨next, hnext, hcomplete⟩
  · exact absurd hforced (not_forced_unit hunit)
  · obtain ⟨hsymbols, rfl⟩ := hcomplete.of_unit hunit
    exact ⟨by rwa [List.append_nil] at hsymbols, hnext⟩

theorem Stack.upcoming_eq_end {tokens : List Token} {ending : Token.Ending}
    (h : upcoming tokens ending = some none) : tokens = [] ∧ ∃ last, ending = .finished last := by
  cases tokens with
  | cons token tokens => cases h
  | nil =>
    cases ending with
    | finished last => exact ⟨rfl, last, rfl⟩
    | stray => cases h

/-- The whole text is made of the whole stack, at the end of the tokens. -/
theorem Stack.Built.yield_whole {stack : Stack} (hbuilt : stack.Built) {production : Production}
    {tokens : List Token} {ending : Token.Ending}
    (hmove : stack.move tokens ending = .reduce production)
    {derivation : Derivation (.nonterminal .unit)}
    (hreduce : stack.reduce production = some (.whole derivation)) :
    derivation.yield = stack.yield ∧ upcoming tokens ending = some none := by
  rw [Stack.reduce] at hreduce
  obtain ⟨⟨children, below⟩, hpop, hwhole⟩ := Option.bind_eq_some_iff.1 hreduce
  obtain ⟨hbelow, rfl⟩ := hbuilt.pop hpop
  simp only at hwhole
  split at hwhole
  · rename_i hunit
    cases hwhole
    obtain ⟨hsymbols, hend⟩ := hbuilt.of_move_whole hmove hunit
    -- the stack has just the symbols of the production, so there is nothing below them
    have hbelow : below = [] := by
      rw [Stack.symbols_pushAll, List.append_left_eq_self] at hsymbols
      simpa [Stack.symbols] using hsymbols
    refine ⟨?_, hend⟩
    rw [yield_cast, Stack.yield_pushAll, hbelow]
    rfl
  · cases hwhole

/-- What is accepted derives all tokens. -/
theorem run_accepted {moves : Nat} {stack : Stack} (hbuilt : stack.Built) {tokens : List Token}
    {ending : Token.Ending} {derivation : Derivation (.nonterminal .unit)}
    (h : run moves stack tokens ending = .accepted derivation) :
    derivation.yield = stack.yield ++ tokens := by
  induction moves generalizing stack tokens with
  | zero => exact absurd h (stack.refuse_ne_accepted _ _ _)
  | succ moves ih =>
    unfold run at h
    cases hmove : stack.move tokens ending with
    | shift =>
      rw [hmove] at h
      cases tokens with
      | nil => exact absurd h (stack.refuse_ne_accepted _ _ _)
      | cons token tokens =>
        rw [ih (hbuilt.push (.token token)) h, Stack.yield_push, Derivation.yield,
          List.append_assoc, List.singleton_append]
    | refuse =>
      rw [hmove] at h
      exact absurd h (stack.refuse_ne_accepted _ _ _)
    | reduce production =>
      rw [hmove] at h
      cases hreduce : stack.reduce production with
      | none =>
        simp only [hreduce] at h
        exact absurd h (stack.refuse_ne_accepted _ _ _)
      | some reduction =>
        simp only [hreduce] at h
        cases reduction with
        | part next =>
          obtain ⟨hnext, hyield⟩ := hbuilt.reduce_part hreduce
          rw [ih hnext h, hyield]
        | whole found =>
          cases h
          obtain ⟨hyield, hend⟩ := hbuilt.yield_whole hmove hreduce
          rw [hyield, (Stack.upcoming_eq_end hend).1, List.append_nil]

end Resumable.Parser
