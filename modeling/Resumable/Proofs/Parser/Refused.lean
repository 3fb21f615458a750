import Resumable.Proofs.Grammar.Extensible
import Resumable.Proofs.Parser.Accepted

/-!
# Where the parser gives up

What has been read can always be extended to a sentence, and the parser goes on
as it would with any such sentence that has the same token next. So it gives up
at the first token with which nothing can be extended any more. The moves that it
is given never run out before that.
-/

namespace Resumable.Parser

open Grammar

/-! ## What has been read can be extended -/

/-- A production that may be under way comes from the whole text, or from a
production that expects its phrase. -/
theorem Possible.origin {symbols : List Symbol} {production : Production} {rest : List Symbol}
    {next : Next} (h : Possible symbols production rest next) :
    ∃ before read, symbols = before ++ read ∧ production.rhs = read ++ rest ∧
      (production.lhs = .unit ∧ before = [] ∨
        ∃ parent others last, Possible before parent (.nonterminal production.lhs :: others) last) := by
  induction h with
  | whole hunit => exact ⟨[], [], rfl, rfl, .inl ⟨hunit, rfl⟩⟩
  | @advance symbols production symbol rest next _ ih =>
    obtain ⟨before, read, rfl, hrhs, horigin⟩ := ih
    exact ⟨before, read ++ [symbol], by rw [List.append_assoc], by simp [hrhs], horigin⟩
  | @expect symbols parent expected others last next h _ _ =>
    exact ⟨symbols, [], by rw [List.append_nil], rfl, .inr ⟨parent, others, last, h⟩⟩

/-- Tokens for the symbols before a production and for those that it expects can be
extended to a text. -/
theorem Possible.exists_yield {symbols : List Symbol} {production : Production}
    {rest : List Symbol} {next : Next} (h : Possible symbols production rest next)
    (before : Forest symbols) (after : Forest rest) :
    ∃ (derivation : Derivation (.nonterminal .unit)) (more : List Token),
      derivation.yield = before.yield ++ after.yield ++ more := by
  induction h with
  | whole hunit =>
    cases before
    exact ⟨hunit ▸ .apply _ after, [], by rw [yield_cast]; simp [Derivation.yield, Forest.yield]⟩
  | advance _ ih =>
    obtain ⟨first, last, hyield⟩ := exists_forest_split before
    cases last with
    | cons symbol nothing =>
      cases nothing
      obtain ⟨derivation, more, hmore⟩ := ih first (.cons symbol after)
      exact ⟨derivation, more, by rw [hmore, hyield]; simp [Forest.yield]⟩
  | @expect _ _ expected rest _ _ _ _ ih =>
    -- what stands after the phrase does not matter, so any derivation of it will do
    obtain ⟨others⟩ := nonempty_forest rest
    obtain ⟨derivation, more, hmore⟩ := ih before (.cons (.apply expected after) others)
    exact ⟨derivation, others.yield ++ more, by rw [hmore]; simp [Forest.yield, Derivation.yield]⟩

namespace Stack

/-- Some production is under way after the symbols on a stack. -/
def Viable (stack : Stack) : Prop :=
  ∃ production rest next, Possible stack.symbols production rest next

theorem exists_forest_symbols {stack : Stack} (h : Built stack) :
    ∃ forest : Forest stack.symbols, forest.yield = stack.yield := by
  induction h with
  | nil => exact ⟨.nil, rfl⟩
  | @push stack _ symbol derivation ih =>
    obtain ⟨forest, hyield⟩ := ih
    obtain ⟨both, hboth⟩ := exists_forest_append forest (.cons derivation .nil)
    rw [symbols_push]
    exact ⟨both, by rw [hboth, hyield, yield_push]; simp [Forest.yield]⟩

/-- What a viable stack derives can be extended to a sentence. -/
theorem Viable.extensible {stack : Stack} (h : Viable stack) (hbuilt : Built stack) :
    Extensible (stack.yield.map (·.kind)) := by
  obtain ⟨production, rest, next, hpossible⟩ := h
  obtain ⟨before, hbefore⟩ := exists_forest_symbols hbuilt
  obtain ⟨after⟩ := nonempty_forest rest
  obtain ⟨derivation, more, hyield⟩ := hpossible.exists_yield before after
  rw [extensible_iff_exists_yield]
  exact ⟨derivation, after.yield ++ more, by rw [hyield, hbefore, List.append_assoc]⟩

theorem viable_nil : Viable [] :=
  ⟨.unitOf, _, _, .whole rfl⟩

/-! ## The moves of a viable stack -/

theorem of_expects {stack : Stack} (hbuilt : Built stack) {kind : Terminal}
    (h : stack.state.expects kind = true) :
    ∃ production rest next, Possible stack.symbols production (.terminal kind :: rest) next := by
  rw [hbuilt.state] at h
  obtain ⟨item, hitem, hhead⟩ := List.any_eq_true.1 h
  obtain ⟨next, hpossible⟩ := possible_of_mem hitem
  obtain ⟨production, rest, ahead⟩ := item
  cases rest with
  | nil => simp at hhead
  | cons symbol rest =>
    obtain rfl : symbol = .terminal kind := by simpa using hhead
    exact ⟨production, rest, next, hpossible⟩

/-- Only a token that is expected is read. -/
theorem Built.of_move_shift {stack : Stack} (hbuilt : Built stack) {tokens : List Token}
    {ending : Token.Ending} (h : stack.move tokens ending = .shift) :
    ∃ token others, tokens = token :: others ∧ Viable (stack.push (.token token)) := by
  have hstate : ∀ next, stack.state.move next = .shift →
      ∃ kind, next = some kind ∧ stack.state.expects kind = true := by
    intro next hmove
    rw [State.move.eq_def] at hmove
    split at hmove
    · cases hmove
    · split at hmove
      · split at hmove
        · rename_i kind _ hexpects
          exact ⟨kind, rfl, hexpects⟩
        · cases hmove
      · cases hmove
  unfold move at h
  split at h
  · cases h
  · split at h
    · obtain ⟨kind, hkind, hexpects⟩ := hstate _ h
      cases hkind
      obtain ⟨production, rest, next, hpossible⟩ := of_expects hbuilt hexpects
      refine ⟨_, _, rfl, production, rest, next, ?_⟩
      rw [symbols_push]
      exact hpossible.advance
    · obtain ⟨kind, hkind, -⟩ := hstate _ h
      cases hkind
    · cases h

/-- The derivations of the last symbols on a stack were put on it. -/
theorem Built.exists_pushAll {stack : Stack} (hbuilt : Built stack) {before symbols : List Symbol}
    (h : stack.symbols = before ++ symbols) :
    ∃ (below : Stack) (forest : Forest symbols), below.Built ∧ below.symbols = before ∧
      stack = below.pushAll forest := by
  induction symbols generalizing before with
  | nil => exact ⟨stack, .nil, hbuilt, by rw [h, List.append_nil], rfl⟩
  | cons symbol symbols ih =>
    rw [List.append_cons] at h
    obtain ⟨upper, forest, hupper, hsymbols, rfl⟩ := ih h
    cases hupper with
    | nil => simp [Stack.symbols] at hsymbols
    | push hbelow derivation =>
      rw [symbols_push] at hsymbols
      obtain ⟨rfl, hsymbol⟩ := List.append_inj' hsymbols rfl
      cases hsymbol
      exact ⟨_, .cons derivation forest, hbelow, rfl, rfl⟩

/-- A move that makes a phrase succeeds, and leaves a viable stack unless the whole
text has been read. -/
theorem Built.of_move_reduce_viable {stack : Stack} (hbuilt : Built stack) {production : Production}
    {tokens : List Token} {ending : Token.Ending}
    (h : stack.move tokens ending = .reduce production) :
    (∃ derivation, stack.reduce production = some (.whole derivation)) ∨
      ∃ next, stack.reduce production = some (.part next) ∧ next.Viable := by
  obtain ⟨next, hcomplete⟩ : ∃ next, Possible stack.symbols production [] next := by
    rcases hbuilt.of_move_reduce h with hforced | ⟨next, -, hcomplete⟩
    · exact hforced.complete
    · exact ⟨next, hcomplete⟩
  obtain ⟨before, read, hsymbols, hrhs, horigin⟩ := hcomplete.origin
  rw [List.append_nil] at hrhs
  subst hrhs
  obtain ⟨below, children, -, rfl, rfl⟩ := hbuilt.exists_pushAll hsymbols
  by_cases hunit : production.lhs = .unit
  · left
    simp [Stack.reduce, pop_pushAll, hunit]
  · right
    refine ⟨_, reduce_pushAll below children hunit, ?_⟩
    rcases horigin with ⟨hwhole, -⟩ | ⟨parent, others, last, hparent⟩
    · exact absurd hwhole hunit
    · refine ⟨parent, others, last, ?_⟩
      rw [symbols_push]
      exact hparent.advance

/-! ## The number of moves -/

/-- The number of moves that made a stack. -/
def moves : Stack → Nat
  | [] => 0
  | frame :: stack => moves stack + size frame.derivation

theorem moves_push (stack : Stack) {symbol : Symbol} (derivation : Derivation symbol) :
    (stack.push derivation).moves = stack.moves + size derivation := rfl

theorem moves_pushAll (stack : Stack) {symbols : List Symbol} (forest : Forest symbols) :
    (stack.pushAll forest).moves = stack.moves + sizeAll forest := by
  induction symbols generalizing stack with
  | nil =>
    cases forest
    rfl
  | cons symbol symbols ih =>
    cases forest with
    | cons first rest => rw [pushAll, ih, moves_push, sizeAll, Nat.add_assoc]

theorem Built.moves_le {stack : Stack} (h : Built stack) :
    (stack.moves : Int) ≤ 8 * stack.yield.length + (stack.symbols.map excess).sum := by
  induction h with
  | nil => simp [moves, yield, symbols]
  | push _ derivation ih =>
    have hsize := size_le derivation
    rw [moves_push, yield_push, symbols_push, List.length_append, List.map_append, List.sum_append]
    simp only [List.map_singleton, List.sum_singleton]
    push_cast
    omega

end Stack

/-- How many more phrases than seven for each token stand before a phrase. -/
def reserve : Nonterminal → Int
  | .unit | .declarations | .statements => 0
  | _ => 1

/-- The room that is left before a symbol, or at the end. -/
def reserveBefore : Option Symbol → Int
  | some (.nonterminal phrase) => reserve phrase
  | _ => 2

/-- Before each phrase of a production there are few enough phrases. -/
theorem reserve_production {production : Production} {read rest : List Symbol}
    (h : production.rhs = read ++ rest) :
    reserve production.lhs + (read.map excess).sum ≤ reserveBefore rest.head? := by
  have hall : ∀ production ∈ Production.all, ∀ n ∈ List.range (production.rhs.length + 1),
      reserve production.lhs + ((production.rhs.take n).map excess).sum ≤
        reserveBefore (production.rhs.drop n).head? := by
    decide +kernel
  have hread : read.length ∈ List.range (production.rhs.length + 1) := by
    rw [List.mem_range, h, List.length_append]
    omega
  have hmain := hall production production.mem_all read.length hread
  rwa [h, List.take_left, List.drop_left] at hmain

theorem reserveBefore_le (symbol : Option Symbol) : reserveBefore symbol ≤ 2 := by
  unfold reserveBefore reserve
  split
  · split <;> decide
  · exact le_rfl

theorem Possible.excess_le {symbols : List Symbol} {production : Production} {rest : List Symbol}
    {next : Next} (h : Possible symbols production rest next) :
    (symbols.map excess).sum ≤ 2 := by
  suffices hread : ∃ before read, symbols = before ++ read ∧ production.rhs = read ++ rest ∧
      (before.map excess).sum ≤ reserve production.lhs by
    obtain ⟨before, read, rfl, hrhs, hbefore⟩ := hread
    have hprefix := (reserve_production hrhs).trans (reserveBefore_le _)
    rw [List.map_append, List.sum_append]
    omega
  induction h with
  | whole hunit => exact ⟨[], [], rfl, rfl, by simp [hunit, reserve]⟩
  | @advance _ _ symbol _ _ _ ih =>
    obtain ⟨before, read, rfl, hrhs, hbefore⟩ := ih
    exact ⟨before, read ++ [symbol], by rw [List.append_assoc], by simp [hrhs], hbefore⟩
  | @expect symbols _ expected _ _ _ _ _ ih =>
    obtain ⟨before, read, rfl, hrhs, hbefore⟩ := ih
    have hphrase : _ ≤ reserve expected.lhs := reserve_production hrhs
    refine ⟨before ++ read, [], by rw [List.append_nil], rfl, ?_⟩
    rw [List.map_append, List.sum_append]
    omega

namespace Stack

/-- A viable stack has been made in fewer moves than there are for its tokens. -/
theorem Viable.moves_lt {stack : Stack} (h : Viable stack) (hbuilt : Built stack) :
    stack.moves < enoughMoves stack.yield.length := by
  obtain ⟨production, rest, next, hpossible⟩ := h
  have hmoves := hbuilt.moves_le
  have hexcess := hpossible.excess_le
  rw [enoughMoves]
  omega

/-! ## Going on -/

/-- What to do depends only on what comes next. -/
theorem move_congr (stack : Stack) {tokens others : List Token} {ending ending' : Token.Ending}
    (h : upcoming tokens ending = upcoming others ending') :
    stack.move tokens ending = stack.move others ending' := by
  unfold move
  split
  · rfl
  · cases tokens <;> cases ending <;> cases others <;> cases ending' <;> simp_all [upcoming]

/-- A stack that the parser may have before some tokens: it is viable, and for every
text that goes on with what comes next it leads to the derivation of that text. -/
structure OnTrack (stack : Stack) (tokens : List Token) (ending : Token.Ending) : Prop where
  built : stack.Built
  viable : stack.Viable
  follows : ∀ (derivation : Derivation (.nonterminal .unit)) (more : List Token)
    (last : Source.Spot), derivation.yield = stack.yield ++ more →
    upcoming more (.finished last) = upcoming tokens ending →
    ∃ moves, run moves stack more (.finished last) = .accepted derivation

theorem onTrack_nil (tokens : List Token) (ending : Token.Ending) : OnTrack [] tokens ending := by
  refine ⟨.nil, viable_nil, fun derivation more last hyield _ => ?_⟩
  obtain rfl : derivation.yield = more := hyield
  exact ⟨_, parse_yield derivation last⟩

theorem OnTrack.shift {stack : Stack} {token : Token} {tokens : List Token}
    {ending : Token.Ending} (h : OnTrack stack (token :: tokens) ending)
    (hmove : stack.move (token :: tokens) ending = .shift) :
    OnTrack (stack.push (.token token)) tokens ending := by
  refine ⟨h.built.push _, ?_, fun derivation more last hyield _ => ?_⟩
  · obtain ⟨_, _, ⟨⟩, hviable⟩ := h.built.of_move_shift hmove
    exact hviable
  · have hmore : derivation.yield = stack.yield ++ token :: more := by
      rw [hyield, yield_push, Derivation.yield, List.append_assoc, List.singleton_append]
    have hnext : upcoming (token :: more) (.finished last) = upcoming (token :: tokens) ending := rfl
    obtain ⟨moves, hrun⟩ := h.follows derivation _ last hmore hnext
    rw [← move_congr stack hnext] at hmove
    cases moves with
    | zero => exact absurd hrun (stack.refuse_ne_accepted _ _ _)
    | succ moves =>
      unfold run at hrun
      simp only [hmove] at hrun
      exact ⟨moves, hrun⟩

theorem OnTrack.reduce {stack next : Stack} {tokens : List Token} {ending : Token.Ending}
    (h : OnTrack stack tokens ending) {production : Production}
    (hmove : stack.move tokens ending = .reduce production)
    (hreduce : stack.reduce production = some (.part next)) (hviable : next.Viable) :
    OnTrack next tokens ending := by
  obtain ⟨hbuilt, hsame⟩ := h.built.reduce_part hreduce
  refine ⟨hbuilt, hviable, fun derivation more last hyield hnext => ?_⟩
  rw [hsame] at hyield
  obtain ⟨moves, hrun⟩ := h.follows derivation more last hyield hnext
  rw [← move_congr stack hnext] at hmove
  cases moves with
  | zero => exact absurd hrun (stack.refuse_ne_accepted _ _ _)
  | succ moves =>
    unfold run at hrun
    simp only [hmove, hreduce] at hrun
    exact ⟨moves, hrun⟩

/-- Where the parser gives up, no text goes on with what comes next. -/
theorem OnTrack.not_yield {stack : Stack} {tokens : List Token} {ending : Token.Ending}
    (h : OnTrack stack tokens ending) (hmove : stack.move tokens ending = .refuse)
    (more : List Token) (last : Source.Spot)
    (hnext : upcoming more (.finished last) = upcoming tokens ending)
    (derivation : Derivation (.nonterminal .unit)) : derivation.yield ≠ stack.yield ++ more := by
  intro hyield
  obtain ⟨moves, hrun⟩ := h.follows derivation more last hyield hnext
  rw [← move_congr stack hnext] at hmove
  cases moves with
  | zero => exact stack.refuse_ne_accepted _ _ _ hrun
  | succ moves =>
    unfold run at hrun
    simp only [hmove] at hrun
    exact stack.refuse_ne_accepted _ _ _ hrun

theorem Built.moves_part {stack next : Stack} (hbuilt : Built stack) {production : Production}
    (h : stack.reduce production = some (.part next)) : next.moves = stack.moves + 1 := by
  obtain ⟨below, children, -, rfl, rfl⟩ := hbuilt.of_reduce_part h
  rw [moves_push, moves_pushAll, size, Nat.add_assoc]

end Stack

/-! ## The verdict on a text -/

/-- The first token with which some tokens cannot be extended to a sentence, or the
end of tokens that can be extended but are no sentence. -/
def Unexpected (tokens : List Token) (ending : Token.Ending) (spot : Source.Spot) : Next → Prop
  | some kind => ∃ before token after, tokens = before ++ token :: after ∧
      token.kind = kind ∧ token.spot = spot ∧ Extensible (before.map (·.kind)) ∧
      ¬ Extensible ((before ++ [token]).map (·.kind))
  | none => ending = .finished spot ∧ Extensible (tokens.map (·.kind)) ∧
      ¬ Sentence (tokens.map (·.kind))

/-- What the outcome of parsing says about the tokens. -/
def Verdict (tokens : List Token) (ending : Token.Ending) : Outcome → Prop
  | .accepted derivation => derivation.yield = tokens ∧ ∃ last, ending = .finished last
  | .stray character spot => ending = .stray character spot ∧ Extensible (tokens.map (·.kind))
  | .confused _ next spot => Unexpected tokens ending spot next

theorem Stack.OnTrack.verdict_refuse {stack : Stack} {tokens : List Token} {ending : Token.Ending}
    (h : stack.OnTrack tokens ending) (hmove : stack.move tokens ending = .refuse) :
    Verdict (stack.yield ++ tokens) ending (stack.refuse tokens ending) := by
  have hextensible := h.viable.extensible h.built
  cases tokens with
  | cons token tokens =>
    refine ⟨stack.yield, token, tokens, rfl, rfl, rfl, hextensible, ?_⟩
    rw [extensible_iff_exists_yield]
    rintro ⟨derivation, more, hyield⟩
    rw [List.append_assoc, List.singleton_append] at hyield
    exact h.not_yield hmove (token :: more) ⟨0, 0⟩ rfl derivation hyield
  | nil =>
    rw [List.append_nil]
    cases ending with
    | finished last =>
      refine ⟨rfl, hextensible, ?_⟩
      rw [sentence_iff_exists_yield]
      rintro ⟨derivation, hyield⟩
      exact h.not_yield hmove [] last rfl derivation (by rw [hyield, List.append_nil])
    | stray character spot => exact ⟨rfl, hextensible⟩

/-- A run with enough moves left ends with the right verdict. -/
theorem run_verdict {moves : Nat} {stack : Stack} {tokens : List Token} {ending : Token.Ending}
    (h : stack.OnTrack tokens ending)
    (henough : enoughMoves (stack.yield.length + tokens.length) ≤ stack.moves + moves) :
    Verdict (stack.yield ++ tokens) ending (run moves stack tokens ending) := by
  induction moves generalizing stack tokens with
  | zero =>
    have hless := h.viable.moves_lt h.built
    rw [enoughMoves] at hless henough
    omega
  | succ moves ih =>
    unfold run
    cases hmove : stack.move tokens ending with
    | shift =>
      obtain ⟨token, others, rfl, -⟩ := h.built.of_move_shift hmove
      have hpushed := ih (h.shift hmove) <| by
        rw [List.length_cons] at henough
        rw [Stack.yield_push, Stack.moves_push, size, Derivation.yield, List.length_append,
          List.length_singleton, enoughMoves]
        rw [enoughMoves] at henough
        omega
      rwa [Stack.yield_push, Derivation.yield, List.append_assoc, List.singleton_append] at hpushed
    | refuse => exact h.verdict_refuse hmove
    | reduce production =>
      rcases h.built.of_move_reduce_viable hmove with ⟨derivation, hreduce⟩ | ⟨next, hreduce, hviable⟩
      · obtain ⟨hyield, hend⟩ := h.built.yield_whole hmove hreduce
        obtain ⟨rfl, hlast⟩ := Stack.upcoming_eq_end hend
        simp only [hreduce]
        exact ⟨by rw [hyield, List.append_nil], hlast⟩
      · have hsame := (h.built.reduce_part hreduce).2
        have hmoves := h.built.moves_part hreduce
        simp only [hreduce]
        rw [← hsame]
        refine ih (h.reduce hmove hreduce hviable) ?_
        rw [hsame, hmoves]
        omega

/-- Parsing ends with the right verdict on the whole text. -/
theorem parse_verdict (scan : Token.Scan) : Verdict scan.tokens scan.ending (parse scan) := by
  have hstart : enoughMoves (Stack.yield [] ++ scan.tokens).length ≤
      Stack.moves [] + enoughMoves scan.tokens.length := Nat.le_add_left _ _
  rw [List.length_append] at hstart
  exact run_verdict (Stack.onTrack_nil scan.tokens scan.ending) hstart

end Resumable.Parser
