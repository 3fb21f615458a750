import Resumable.Parser.Hint
import Mathlib

/-!
# The best guess is the longest match

A hint matches some symbols if its clues match them from end to end. The search for advice
goes down the stack with all trees at once. One symbol takes the trees to what their hints
still want below it (`matched_cons`), and a tree has advice where one of its hints wants
nothing more (`matched_nil`). So the last advice that is met belongs to a hint that matches
the longest row of symbols on top of the stack.
-/

namespace Resumable.Parser

/-! ## Clues and symbols -/

/-- Clues match a row of symbols, from end to end. -/
inductive Clue.Match : List Clue → List String → Prop where
  | nil : Match [] []
  | symbol (text : String) {clues : List Clue} {symbols : List String}
      (rest : Match clues symbols) : Match (.symbol text :: clues) (text :: symbols)
  | anything (run : List String) {clues : List Clue} {symbols : List String}
      (rest : Match clues symbols) : Match (.anything :: clues) (run ++ symbols)

namespace Clue.Match

variable {clues clues' : List Clue} {symbols symbols' : List String}

theorem append (h : Match clues symbols) (h' : Match clues' symbols') :
    Match (clues ++ clues') (symbols ++ symbols') := by
  induction h with
  | nil => exact h'
  | symbol text _ ih => exact .symbol text ih
  | anything run _ ih =>
    rw [List.append_assoc]
    exact .anything run ih

theorem reverse (h : Match clues symbols) : Match clues.reverse symbols.reverse := by
  induction h with
  | nil => exact .nil
  | symbol text _ ih =>
    rw [List.reverse_cons, List.reverse_cons]
    exact ih.append (.symbol text .nil)
  | anything run _ ih =>
    rw [List.reverse_cons, List.reverse_append]
    have hrun : Match [.anything] (run.reverse ++ []) := .anything run.reverse .nil
    rw [List.append_nil] at hrun
    exact ih.append hrun

theorem symbol_iff {text symbol : String} :
    Match (.symbol text :: clues) (symbol :: symbols) ↔ text = symbol ∧ Match clues symbols := by
  constructor
  · intro h
    cases h with
    | symbol _ hrest => exact ⟨rfl, hrest⟩
  · rintro ⟨rfl, hrest⟩
    exact .symbol text hrest

/-- A run of any symbols is over, or it goes on with one more. -/
theorem anything_cons_iff {symbol : String} :
    Match (.anything :: clues) (symbol :: symbols) ↔
      Match clues (symbol :: symbols) ∨ Match (.anything :: clues) symbols := by
  constructor
  · intro h
    generalize hall : symbol :: symbols = all at h
    cases h with
    | anything run hrest =>
      cases run with
      | nil =>
        rw [List.nil_append] at hall
        exact .inl (hall ▸ hrest)
      | cons first run =>
        obtain ⟨rfl, rfl⟩ := List.cons.inj hall
        exact .inr (.anything run hrest)
  · rintro (hrest | hmore)
    · exact .anything [] hrest
    · cases hmore with
      | anything run hrest => exact .anything (symbol :: run) hrest

theorem anything_nil_iff : Match (.anything :: clues) [] ↔ Match clues [] := by
  constructor
  · intro h
    generalize hall : ([] : List String) = all at h
    cases h with
    | anything run hrest =>
      obtain ⟨rfl, rfl⟩ := List.append_eq_nil_iff.1 hall.symm
      exact hrest
  · exact fun h => .anything [] h

end Clue.Match

/-- Whether any run of symbols may stand before other clues, as a clue. -/
def Clue.gap (anything : Bool) : List Clue :=
  if anything then [.anything] else []

theorem Clue.match_gap_cons_iff {anything : Bool} {clues : List Clue} {symbol : String}
    {symbols : List String} :
    Match (gap anything ++ clues) (symbol :: symbols) ↔
      Match clues (symbol :: symbols) ∨
        anything = true ∧ Match (gap anything ++ clues) symbols := by
  cases anything with
  | false => simp [gap]
  | true => simpa [gap] using Match.anything_cons_iff

theorem Clue.match_gap_nil_iff {anything : Bool} {clues : List Clue} :
    Match (gap anything ++ clues) [] ↔ Match clues [] := by
  cases anything with
  | false => exact Iff.rfl
  | true => exact Match.anything_nil_iff

/-! ## The hints of a tree -/

namespace AdviceTree

mutual

/-- The hints in a tree: their clues, the top of the stack first, and their advice. -/
def rules : AdviceTree → List (List Clue × String)
  | ⟨advice, anything, branches⟩ =>
      let ending : List (List Clue × String) := advice.toList.map ([], ·)
      (ending ++ branchRules branches).map fun rule => (Clue.gap anything ++ rule.1, rule.2)

/-- The hints in the branches of a tree. -/
def branchRules : List (String × AdviceTree) → List (List Clue × String)
  | [] => []
  | (text, tree) :: branches =>
      tree.rules.map (fun rule => (.symbol text :: rule.1, rule.2)) ++ branchRules branches

end

theorem mem_branchRules {branches : List (String × AdviceTree)} {clues : List Clue}
    {advice : String} :
    (clues, advice) ∈ branchRules branches ↔
      ∃ text branch, (text, branch) ∈ branches ∧
        ∃ below, (below, advice) ∈ branch.rules ∧ clues = .symbol text :: below := by
  induction branches with
  | nil => simp [branchRules]
  | cons first branches ih =>
    obtain ⟨text, tree⟩ := first
    rw [branchRules, List.mem_append, ih]
    constructor
    · rintro (hfirst | ⟨text', branch, hmem, hrule⟩)
      · obtain ⟨⟨below, found⟩, hrule, heq⟩ := List.mem_map.1 hfirst
        obtain ⟨rfl, rfl⟩ := Prod.mk.inj heq
        exact ⟨text, tree, List.mem_cons_self, below, hrule, rfl⟩
      · exact ⟨text', branch, List.mem_cons_of_mem _ hmem, hrule⟩
    · rintro ⟨text', branch, hmem, below, hrule, rfl⟩
      rcases List.mem_cons.1 hmem with heq | hmem
      · obtain ⟨rfl, rfl⟩ := Prod.mk.inj heq
        exact .inl (List.mem_map.2 ⟨_, hrule, rfl⟩)
      · exact .inr ⟨text', branch, hmem, below, hrule, rfl⟩

theorem mem_rules {tree : AdviceTree} {clues : List Clue} {advice : String} :
    (clues, advice) ∈ tree.rules ↔
      ∃ rest, clues = Clue.gap tree.anything ++ rest ∧
        (rest = [] ∧ tree.advice = some advice ∨ (rest, advice) ∈ branchRules tree.branches) := by
  obtain ⟨found, anything, branches⟩ := tree
  simp only [rules, List.mem_map, List.mem_append, Option.mem_toList, Prod.mk.injEq, Prod.exists]
  constructor
  · rintro ⟨rest, advice, hrule, rfl, rfl⟩
    refine ⟨rest, rfl, hrule.imp_left ?_⟩
    rintro ⟨advice, hadvice, rfl, rfl⟩
    exact ⟨rfl, hadvice⟩
  · rintro ⟨rest, rfl, hrule⟩
    refine ⟨rest, advice, hrule.imp_left ?_, rfl, rfl⟩
    rintro ⟨rfl, hadvice⟩
    exact ⟨advice, hadvice, rfl, rfl⟩

theorem mem_follow {tree next : AdviceTree} {symbol : String} :
    next ∈ tree.follow symbol ↔
      (symbol, next) ∈ tree.branches ∨ tree.anything = true ∧ next = tree := by
  simp only [follow, List.mem_append, List.mem_filterMap, Option.ite_none_right_eq_some,
    Option.some.injEq, Prod.exists]
  constructor
  · rintro (⟨text, branch, hmem, rfl, rfl⟩ | hstay)
    · exact .inl hmem
    · split_ifs at hstay with hanything
      · exact .inr ⟨hanything, List.mem_singleton.1 hstay⟩
      · cases hstay
  · rintro (hmem | ⟨hanything, rfl⟩)
    · exact .inl ⟨symbol, next, hmem, rfl, rfl⟩
    · exact .inr (by simp [hanything])

/-- A hint in some trees, with this advice, matches a row of symbols, the top first. -/
def Matched (trees : List AdviceTree) (symbols : List String) (advice : String) : Prop :=
  ∃ tree ∈ trees, ∃ clues, (clues, advice) ∈ tree.rules ∧ Clue.Match clues symbols

/-- A tree has advice where a hint in it wants nothing more. -/
theorem matched_nil {trees : List AdviceTree} {advice : String} :
    Matched trees [] advice ↔ ∃ tree ∈ trees, tree.advice = some advice := by
  refine exists_congr fun tree => and_congr_right fun _ => ?_
  constructor
  · rintro ⟨clues, hrule, hmatch⟩
    obtain ⟨rest, rfl, ⟨-, hadvice⟩ | hbranch⟩ := mem_rules.1 hrule
    · exact hadvice
    · obtain ⟨text, branch, -, below, -, rfl⟩ := mem_branchRules.1 hbranch
      cases Clue.match_gap_nil_iff.1 hmatch
  · intro hadvice
    exact ⟨_, mem_rules.2 ⟨[], rfl, .inl ⟨rfl, hadvice⟩⟩, Clue.match_gap_nil_iff.2 .nil⟩

/-- One symbol takes the trees to what their hints want below it. -/
theorem matched_cons {trees : List AdviceTree} {symbol : String} {symbols : List String}
    {advice : String} :
    Matched trees (symbol :: symbols) advice ↔
      Matched (trees.flatMap (·.follow symbol)) symbols advice := by
  constructor
  · rintro ⟨tree, htree, clues, hrule, hmatch⟩
    obtain ⟨rest, rfl, hrest⟩ := mem_rules.1 hrule
    rcases Clue.match_gap_cons_iff.1 hmatch with hhere | ⟨hanything, hmore⟩
    · -- the symbol is the one that a branch is for
      rcases hrest with ⟨rfl, -⟩ | hbranch
      · cases hhere
      · obtain ⟨text, branch, hmem, below, hbelow, rfl⟩ := mem_branchRules.1 hbranch
        obtain ⟨rfl, hmatch_below⟩ := Clue.Match.symbol_iff.1 hhere
        exact ⟨branch, List.mem_flatMap.2 ⟨tree, htree, mem_follow.2 (.inl hmem)⟩, below, hbelow,
          hmatch_below⟩
    · -- the symbol belongs to a run of any symbols, and the tree stays
      exact ⟨tree, List.mem_flatMap.2 ⟨tree, htree, mem_follow.2 (.inr ⟨hanything, rfl⟩)⟩, _,
        hrule, hmore⟩
  · rintro ⟨next, hnext, clues, hrule, hmatch⟩
    obtain ⟨tree, htree, hfollow⟩ := List.mem_flatMap.1 hnext
    rcases mem_follow.1 hfollow with hmem | ⟨hanything, rfl⟩
    · have hbranch : (.symbol symbol :: clues, advice) ∈ branchRules tree.branches :=
        mem_branchRules.2 ⟨symbol, next, hmem, clues, hrule, rfl⟩
      exact ⟨tree, htree, _, mem_rules.2 ⟨_, rfl, .inr hbranch⟩,
        Clue.match_gap_cons_iff.2 (.inl (.symbol symbol hmatch))⟩
    · obtain ⟨rest, rfl, -⟩ := mem_rules.1 hrule
      exact ⟨next, htree, _, hrule, Clue.match_gap_cons_iff.2 (.inr ⟨hanything, hmatch⟩)⟩

end AdviceTree

/-! ## The search -/

open AdviceTree (Matched matched_nil matched_cons)

/-- The last advice among some trees, or else what was best before. -/
theorem foldl_advice (trees : List AdviceTree) (before : Option String) :
    let found := trees.foldl (fun best tree => tree.advice.or best) before
    (∃ tree ∈ trees, ∃ advice, tree.advice = some advice ∧ found = some advice) ∨
      (∀ tree ∈ trees, tree.advice = none) ∧ found = before := by
  induction trees generalizing before with
  | nil => exact .inr ⟨by simp, rfl⟩
  | cons tree trees ih =>
    rcases ih (tree.advice.or before) with ⟨later, hlater, hfound⟩ | ⟨hnone, hfound⟩
    · exact .inl ⟨later, List.mem_cons_of_mem _ hlater, hfound⟩
    · cases hadvice : tree.advice with
      | none =>
        have hbefore : tree.advice.or before = before := by rw [hadvice, Option.none_or]
        exact .inr ⟨List.forall_mem_cons.2 ⟨hadvice, hnone⟩, hfound.trans hbefore⟩
      | some advice =>
        have hhere : tree.advice.or before = some advice := by rw [hadvice, Option.some_or]
        exact .inl ⟨tree, List.mem_cons_self, advice, hadvice, hfound.trans hhere⟩

/-- Advice of a hint in some trees that matches the longest row of symbols, the top first.
A hint that matches no symbol at all does not count. -/
def Longest (trees : List AdviceTree) (symbols : List String) (advice : String) : Prop :=
  ∃ top, top ≠ [] ∧ top <+: symbols ∧ Matched trees top advice ∧
    ∀ top' advice', top' <+: symbols → Matched trees top' advice' → top'.length ≤ top.length

theorem Longest.cons {trees : List AdviceTree} {symbol : String} {symbols : List String}
    {advice : String} (h : Longest (trees.flatMap (·.follow symbol)) symbols advice) :
    Longest trees (symbol :: symbols) advice := by
  obtain ⟨top, -, hprefix, hmatched, hlongest⟩ := h
  refine ⟨symbol :: top, by simp, List.cons_prefix_cons.2 ⟨rfl, hprefix⟩, matched_cons.2 hmatched,
    fun top' advice' hprefix' hmatched' => ?_⟩
  cases top' with
  | nil => simp
  | cons first top' =>
    obtain ⟨rfl, hbelow⟩ := List.cons_prefix_cons.1 hprefix'
    exact Nat.succ_le_succ (hlongest top' advice' hbelow (matched_cons.1 hmatched'))

/-- A search down the stack finds the advice of a longest match. If nothing matches, the best
advice is that from before. -/
theorem foldl_step_best (symbols : List String) (trees : List AdviceTree)
    (before : Option String) :
    let found := (symbols.foldl Search.step ⟨trees, before⟩).best
    (∃ advice, found = some advice ∧ Longest trees symbols advice) ∨
      found = before ∧ ∀ top advice, top ≠ [] → top <+: symbols → ¬ Matched trees top advice := by
  induction symbols generalizing trees before with
  | nil =>
    refine .inr ⟨rfl, fun top advice hne hprefix => absurd ?_ hne⟩
    exact List.prefix_nil.1 hprefix
  | cons symbol symbols ih =>
    let below := trees.flatMap (·.follow symbol)
    let here := below.foldl (fun best tree => tree.advice.or best) before
    rcases ih below here with ⟨advice, hfound, hlongest⟩ | ⟨hfound, hnone⟩
    · exact .inl ⟨advice, hfound, hlongest.cons⟩
    · -- nothing matches further down, so advice that ends at this symbol is best
      have hsingle : ∀ top' advice', top' <+: symbol :: symbols → Matched trees top' advice' →
          top'.length ≤ 1 := by
        intro top' advice' hprefix' hmatched'
        cases top' with
        | nil => simp
        | cons first top' =>
          obtain ⟨rfl, hbelow⟩ := List.cons_prefix_cons.1 hprefix'
          by_cases hne : top' = []
          · simp [hne]
          · exact absurd (matched_cons.1 hmatched') (hnone top' advice' hne hbelow)
      rcases foldl_advice below before with ⟨tree, htree, advice, hadvice, hhere⟩ | ⟨hempty, hhere⟩
      · refine .inl ⟨advice, hfound.trans hhere, [symbol], by simp, ?_, ?_, hsingle⟩
        · exact List.cons_prefix_cons.2 ⟨rfl, List.nil_prefix⟩
        · exact matched_cons.2 (matched_nil.2 ⟨tree, htree, hadvice⟩)
      · refine .inr ⟨hfound.trans hhere, fun top advice hne hprefix hmatched => ?_⟩
        have hlength := hsingle top advice hprefix hmatched
        obtain ⟨first, top, rfl⟩ := List.exists_cons_of_ne_nil hne
        obtain ⟨rfl, -⟩ := List.cons_prefix_cons.1 hprefix
        obtain rfl : top = [] := by simpa using hlength
        obtain ⟨tree, htree, hadvice⟩ := matched_nil.1 (matched_cons.1 hmatched)
        rw [hempty tree htree] at hadvice
        cases hadvice

/-! ## Hints by what comes next -/

/-- A hint matches all of some symbols and what comes next. -/
structure Hint.Matches (hint : Hint) (symbols : List String) (next : String) : Prop where
  symbols : Clue.Match hint.clues symbols
  next : hint.next = none ∨ hint.next = some next

/-- The hints in some trees. -/
def HintTrees.hints (trees : HintTrees) : List Hint :=
  trees.flatMap fun (next, tree) => tree.rules.map fun (clues, advice) => ⟨clues.reverse, next, advice⟩

theorem HintTrees.matched_roots {trees : HintTrees} {symbols : List String} {next advice : String} :
    Matched (trees.roots next) symbols.reverse advice ↔
      ∃ hint ∈ trees.hints, hint.advice = advice ∧ hint.Matches symbols next := by
  simp only [Matched, roots, hints, List.mem_filterMap, List.mem_flatMap, List.mem_map, Prod.exists,
    Option.ite_none_right_eq_some, Option.some.injEq]
  constructor
  · rintro ⟨tree, ⟨expected, tree, hmem, hnext, rfl⟩, clues, hrule, hmatch⟩
    refine ⟨⟨clues.reverse, expected, advice⟩, ⟨expected, tree, hmem, clues, advice, hrule, rfl⟩,
      rfl, ?_, hnext⟩
    simpa using hmatch.reverse
  · rintro ⟨hint, ⟨expected, tree, hmem, clues, advice, hrule, rfl⟩, rfl, hmatch, hnext⟩
    refine ⟨tree, ⟨expected, tree, hmem, hnext, rfl⟩, clues, hrule, ?_⟩
    simpa using hmatch.reverse

/-! ## The common mistakes -/

namespace Hint

/-- No hint was lost or changed when the trees were put together. -/
theorem hints_ofHints_common : (HintTrees.ofHints common).hints.Perm common := by
  decide

/-- Whether two rows of clues may match the same symbols, judged from their first ends up to
a run of any symbols. -/
def mayMeet : List Clue → List Clue → Bool
  | [], [] => true
  | .symbol text :: clues, .symbol text' :: clues' => text == text' && mayMeet clues clues'
  | .anything :: _, _ => true
  | _, .anything :: _ => true
  | _, _ => false

theorem mayMeet_of_match {clues clues' : List Clue} {symbols : List String}
    (h : Clue.Match clues symbols) (h' : Clue.Match clues' symbols) :
    mayMeet clues clues' = true := by
  induction h generalizing clues' with
  | nil =>
    cases clues' with
    | nil => rfl
    | cons clue clues' =>
      cases clue with
      | symbol text => cases h'
      | anything => rfl
  | symbol text _ ih =>
    cases clues' with
    | nil => cases h'
    | cons clue clues' =>
      cases clue with
      | symbol text' =>
        obtain ⟨rfl, hrest⟩ := Clue.Match.symbol_iff.1 h'
        simp [mayMeet, ih hrest]
      | anything => rfl
  | anything run _ _ => simp [mayMeet]

/-- Two hints that match the same symbols have the same advice. Their clues are compared
from the top of the stack. -/
theorem advice_eq_of_matches {hint other : Hint} (hmem : hint ∈ common) (hmem' : other ∈ common)
    {symbols : List String} {next : String} (h : hint.Matches symbols next)
    (h' : other.Matches symbols next) : hint.advice = other.advice := by
  have htable : ∀ hint ∈ common, ∀ other ∈ common,
      mayMeet hint.clues.reverse other.clues.reverse = true →
      hint.next = none ∨ other.next = none ∨ hint.next = other.next →
      hint.advice = other.advice := by decide
  refine htable hint hmem other hmem' (mayMeet_of_match h.symbols.reverse h'.symbols.reverse) ?_
  rcases h.next with hany | hnext
  · exact .inl hany
  · rcases h'.next with hany' | hnext'
    · exact .inr (.inl hany')
    · exact .inr (.inr (hnext.trans hnext'.symm))

/-- Every hint names the symbol on top of the stack. -/
theorem ne_nil_of_matches {hint : Hint} (hmem : hint ∈ common) {symbols : List String}
    {next : String} (h : hint.Matches symbols next) : symbols ≠ [] := by
  rintro rfl
  have htable : ∀ hint ∈ common, mayMeet [] hint.clues.reverse = false := by decide
  have hmeet := mayMeet_of_match Clue.Match.nil h.symbols.reverse
  rw [htable hint hmem] at hmeet
  cases hmeet

theorem matched_common {symbols : List String} {next advice : String} :
    Matched ((HintTrees.ofHints common).roots next) symbols.reverse advice ↔
      ∃ hint ∈ common, hint.advice = advice ∧ hint.Matches symbols next := by
  simp only [HintTrees.matched_roots, hints_ofHints_common.mem_iff]

/-- A hint matches a row of symbols on top of the stack, and no hint matches a longer one. -/
def BestGuess (hint : Hint) (stack : List String) (next : String) : Prop :=
  hint ∈ common ∧ ∃ top, top <:+ stack ∧ hint.Matches top next ∧
    ∀ other ∈ common, ∀ top', top' <:+ stack → other.Matches top' next → top'.length ≤ top.length

theorem exists_bestGuess_of_longest {stack : List String} {next advice : String}
    (h : Longest ((HintTrees.ofHints common).roots next) stack.reverse advice) :
    ∃ hint, BestGuess hint stack next ∧ hint.advice = advice := by
  obtain ⟨top, -, hprefix, hmatched, hlongest⟩ := h
  rw [← List.reverse_reverse top, matched_common] at hmatched
  obtain ⟨hint, hmem, hadvice, hmatches⟩ := hmatched
  refine ⟨hint, ⟨hmem, top.reverse, ?_, hmatches, fun other hother top' hsuffix hmatches' => ?_⟩,
    hadvice⟩
  · rwa [← List.reverse_prefix, List.reverse_reverse]
  · have hmatched' := matched_common.2 ⟨other, hother, rfl, hmatches'⟩
    simpa using hlongest _ _ (List.reverse_prefix.2 hsuffix) hmatched'

/-- Best guesses for a stack match the same symbols. -/
theorem BestGuess.advice_eq {hint other : Hint} {stack : List String} {next : String}
    (h : BestGuess hint stack next) (h' : BestGuess other stack next) :
    hint.advice = other.advice := by
  obtain ⟨hmem, top, hsuffix, hmatches, hlongest⟩ := h
  obtain ⟨hmem', top', hsuffix', hmatches', hlongest'⟩ := h'
  have hle := hlongest other hmem' top' hsuffix' hmatches'
  have hge := hlongest' hint hmem top hsuffix hmatches
  have hsame : top' = top :=
    (List.suffix_of_suffix_length_le hsuffix' hsuffix hle).eq_of_length (Nat.le_antisymm hle hge)
  subst hsame
  exact advice_eq_of_matches hmem hmem' hmatches hmatches'

/-- The hint for a confused parser is the advice of the hint that matches the longest row of
symbols on top of its stack. No two hints with different advice match equally long rows. If no
hint matches, the hint is the whole stack, a mark, and what comes next. -/
theorem text_longest_match (stack : List String) (next : String) :
    ((∃ hint, BestGuess hint stack next ∧
        text stack next = "Here's my best guess:\n\t" ++ hint.advice) ∨
      (∀ hint ∈ common, ∀ top, top <:+ stack → ¬ hint.Matches top next) ∧
        text stack next = "Parser state:\n\t" ++ " ".intercalate (stack ++ ["●", next])) ∧
    ∀ hint other, BestGuess hint stack next → BestGuess other stack next →
      hint.advice = other.advice := by
  refine ⟨?_, fun hint other h h' => h.advice_eq h'⟩
  rcases foldl_step_best stack.reverse ((HintTrees.ofHints common).roots next) none with
    ⟨advice, hfound, hlongest⟩ | ⟨hfound, hnone⟩
  · obtain ⟨hint, hbest, rfl⟩ := exists_bestGuess_of_longest hlongest
    exact .inl ⟨hint, hbest, by rw [text, best?, hfound]⟩
  · refine .inr ⟨fun hint hmem top hsuffix hmatches => ?_, by rw [text, best?, hfound, divider]⟩
    have hne : top.reverse ≠ [] := by simpa using ne_nil_of_matches hmem hmatches
    exact hnone _ _ hne (List.reverse_prefix.2 hsuffix)
      (matched_common.2 ⟨hint, hmem, rfl, hmatches⟩)

/-- Of the two hints that match here, the one for `BREAK name` is longer. -/
example : text ["(", "expr", "BREAK", "name"] "\x7b" =
    "Here's my best guess:\n\tA break-statement ends with a semicolon." := by
  decide

end Hint

end Resumable.Parser
