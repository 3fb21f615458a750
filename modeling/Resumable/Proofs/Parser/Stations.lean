import Resumable.Proofs.Parser.Follow

/-!
# No two things to do

A station is a set of productions that are under way together, whatever may
follow them, kept as the bits of a number. There are few stations, so they can be
looked at one by one: in none of them is there a production that is complete
before a token that could also be read, or that also completes another
production.
-/

namespace Resumable.Parser

open Grammar

/-! ## Exploration -/

/-- Whether all that is reached from `todo` within so many steps is good. What is
in `seen` is not looked at again. -/
def explore (successors : Nat → List Nat) (good : Nat → Bool) :
    Nat → (todo seen : List Nat) → Bool
  | 0, _, _ => false
  | _ + 1, [], _ => true
  | steps + 1, station :: todo, seen =>
      bif seen.any (Nat.beq station) then explore successors good steps todo seen
      else good station &&
        explore successors good steps (successors station ++ todo) (station :: seen)

/-- A successful exploration has seen a set of good stations that no successor
leaves. -/
theorem exists_of_explore {successors : Nat → List Nat} {good : Nat → Bool} {steps : Nat}
    {todo seen : List Nat} (h : explore successors good steps todo seen = true)
    (hseen : ∀ station ∈ seen, good station = true ∧
      ∀ next ∈ successors station, next ∈ seen ∨ next ∈ todo) :
    ∃ stations : List Nat, (∀ station ∈ seen ++ todo, station ∈ stations) ∧
      ∀ station ∈ stations, good station = true ∧ ∀ next ∈ successors station, next ∈ stations := by
  induction steps generalizing todo seen with
  | zero => simp [explore] at h
  | succ steps ih =>
    cases todo with
    | nil => exact ⟨seen, by simp, by simpa using hseen⟩
    | cons station todo =>
      rw [explore] at h
      cases hknown : seen.any (Nat.beq station) with
      | true =>
        -- it has been looked at, and its successors are where they should be
        have hmem : station ∈ seen := by simpa using hknown
        rw [hknown, cond_true] at h
        obtain ⟨stations, hsub, hgood⟩ := ih h fun other hother => ⟨(hseen other hother).1,
          fun next hnext => by
            rcases (hseen other hother).2 next hnext with hnext | hnext
            · exact .inl hnext
            · rcases List.mem_cons.1 hnext with rfl | hnext
              · exact .inl hmem
              · exact .inr hnext⟩
        refine ⟨stations, fun other hother => ?_, hgood⟩
        simp only [List.mem_append, List.mem_cons] at hother hsub
        rcases hother with hother | rfl | hother
        · exact hsub other (.inl hother)
        · exact hsub other (.inl hmem)
        · exact hsub other (.inr hother)
      | false =>
        -- it is looked at now, and its successors are put in front of the others
        rw [hknown, cond_false, Bool.and_eq_true] at h
        obtain ⟨stations, hsub, hgood⟩ := ih h.2 <| by
          refine List.forall_mem_cons.2 ⟨⟨h.1, fun next hnext => .inr (by simp [hnext])⟩, ?_⟩
          intro other hother
          refine ⟨(hseen other hother).1, fun next hnext => ?_⟩
          rcases (hseen other hother).2 next hnext with hnext | hnext
          · exact .inl (List.mem_cons_of_mem _ hnext)
          · rcases List.mem_cons.1 hnext with rfl | hnext
            · exact .inl List.mem_cons_self
            · exact .inr (by simp [hnext])
        refine ⟨stations, fun other hother => hsub other ?_, hgood⟩
        simp only [List.mem_append, List.mem_cons] at hother ⊢
        tauto

/-! ## Stations -/

/-- The bit for a production of which a row of symbols is still to come. A symbol
that is read moves it down by one place. -/
def mark (production : Production) (rest : List Symbol) : Nat :=
  8 * production.ctorIdx + rest.length

/-- The set of some places. -/
def marks (places : List Nat) : Nat :=
  places.foldr (fun place station => station ||| 1 <<< place) 0

theorem testBit_marks {places : List Nat} {place : Nat} :
    (marks places).testBit place = true ↔ place ∈ places := by
  induction places with
  | nil => simp [marks]
  | cons other places ih =>
    have hcons : marks (other :: places) = marks places ||| 1 <<< other := rfl
    rw [hcons, Nat.testBit_or, Bool.or_eq_true, ih, Nat.one_shiftLeft, Nat.testBit_two_pow,
      decide_eq_true_eq, List.mem_cons, or_comm, eq_comm]

/-- The productions that expect a symbol. -/
def expecting (symbol : Symbol) : Nat :=
  marks (Production.all.flatMap fun production =>
    (production.rhs.tails.filter (·.head? = some symbol)).map (mark production))

/-- The productions of a phrase, with nothing read. -/
def unread (phrase : Nonterminal) : Nat :=
  marks ((Production.all.filter (·.lhs = phrase)).map fun production =>
    mark production production.rhs)

/-- Bring along the productions of the phrases that are expected. -/
def enter (station : Nat) : Nat :=
  Nonterminal.all.foldl (fun station phrase =>
    bif Nat.beq (station &&& expecting (.nonterminal phrase)) 0 then station
    else station ||| unread phrase) station

/-- The stations after one more symbol. -/
def successors (station : Nat) : List Nat :=
  Symbol.all.filterMap fun symbol =>
    let read := (station &&& expecting symbol) >>> 1
    bif Nat.beq read 0 then none else some (enter read)

/-- Whether the productions of all expected phrases are there. -/
def settled (station : Nat) : Bool :=
  Nonterminal.all.all fun phrase =>
    Nat.beq (station &&& expecting (.nonterminal phrase)) 0 ||
      Nat.beq (station ||| unread phrase) station

/-- Whether two look-ahead sets have nothing in common. -/
def Ahead.disjoint (a b : Ahead) : Bool :=
  a.bits &&& b.bits == 0

/-- Whether there are never two things to do. -/
def quiet (station : Nat) : Bool :=
  let complete := Production.all.filter fun production => station.testBit (mark production [])
  complete.all fun production =>
    (complete.all fun other =>
      production = other || (follow production.lhs).disjoint (follow other.lhs)) &&
    Terminal.all.all fun kind =>
      !(follow production.lhs).contains (some kind) ||
        Nat.beq (station &&& expecting (.terminal kind)) 0

/-- The station before anything has been read. -/
def terminus : Nat :=
  enter (unread .unit)

theorem explore_terminus :
    explore successors (fun station => settled station && quiet station) 600 [terminus] [] =
      true := by
  decide +kernel

/-! ## Which productions a station has -/

theorem mark_cons (production : Production) (symbol : Symbol) (rest : List Symbol) :
    mark production (symbol :: rest) = 1 + mark production rest := by
  simp only [mark, List.length_cons]
  omega

theorem testBit_expecting {production : Production} {symbol : Symbol} {rest : List Symbol}
    (h : symbol :: rest <:+ production.rhs) :
    (expecting symbol).testBit (mark production (symbol :: rest)) = true := by
  rw [expecting, testBit_marks, List.mem_flatMap]
  refine ⟨production, production.mem_all, List.mem_map_of_mem ?_⟩
  simp [h]

theorem testBit_unread (production : Production) :
    (unread production.lhs).testBit (mark production production.rhs) = true := by
  rw [unread, testBit_marks, List.mem_map]
  exact ⟨production, by simp [production.mem_all], rfl⟩

theorem testBit_and {m n place : Nat} (hm : m.testBit place = true) (hn : n.testBit place = true) :
    (m &&& n).testBit place = true := by
  rw [Nat.testBit_and, hm, hn, Bool.and_self]

/-- A set that has a member is not empty. -/
theorem beq_zero_of_testBit {n place : Nat} (h : n.testBit place = true) : Nat.beq n 0 = false := by
  rw [← Bool.not_eq_true, Nat.beq_eq]
  rintro rfl
  simp at h

/-- Entering keeps what is there. -/
theorem testBit_enter {station place : Nat} (h : station.testBit place = true) :
    (enter station).testBit place = true := by
  refine List.foldlRecOn (motive := fun station : Nat => station.testBit place = true) _ _ h ?_
  intro station hstation phrase _
  cases Nat.beq (station &&& expecting (.nonterminal phrase)) 0 with
  | true => exact hstation
  | false =>
    rw [cond_false, Nat.testBit_or, hstation, Bool.true_or]

/-- The productions of an expected phrase are there. -/
theorem testBit_of_settled {station : Nat} (hsettled : settled station = true)
    {production expected : Production} {rest : List Symbol}
    (hsuffix : .nonterminal expected.lhs :: rest <:+ production.rhs)
    (h : station.testBit (mark production (.nonterminal expected.lhs :: rest)) = true) :
    station.testBit (mark expected expected.rhs) = true := by
  have hphrase := List.all_eq_true.1 hsettled expected.lhs expected.lhs.mem_all
  rw [beq_zero_of_testBit (testBit_and h (testBit_expecting hsuffix)), Bool.false_or,
    Nat.beq_eq] at hphrase
  rw [← hphrase, Nat.testBit_or, testBit_unread, Bool.or_true]

theorem testBit_read {station : Nat} {production : Production} {symbol : Symbol}
    {rest : List Symbol} (hsuffix : symbol :: rest <:+ production.rhs)
    (h : station.testBit (mark production (symbol :: rest)) = true) :
    ((station &&& expecting symbol) >>> 1).testBit (mark production rest) = true := by
  rw [Nat.testBit_shiftRight, ← mark_cons production symbol rest]
  exact testBit_and h (testBit_expecting hsuffix)

/-- A station has all productions that may be under way after some symbols. -/
def Serves (station : Nat) (symbols : List Symbol) : Prop :=
  ∀ {production : Production} {rest : List Symbol} {next : Next},
    Possible symbols production rest next → station.testBit (mark production rest) = true

theorem serves_terminus (hsettled : settled terminus = true) : Serves terminus [] := by
  intro production rest next h
  generalize hsymbols : ([] : List Symbol) = symbols at h
  induction h with
  | @whole production hunit =>
    refine testBit_enter ?_
    rw [← hunit]
    exact testBit_unread production
  | advance => simp at hsymbols
  | expect h _ ih => exact testBit_of_settled hsettled h.suffix (ih hsymbols)

/-- The station after one more symbol. -/
theorem Serves.append {station : Nat} {symbols : List Symbol} (hserves : Serves station symbols)
    {symbol : Symbol} {next : Nat} (hsettled : settled next = true)
    (hnext : ∀ {place : Nat}, ((station &&& expecting symbol) >>> 1).testBit place = true →
      next.testBit place = true) : Serves next (symbols ++ [symbol]) := by
  intro production rest last h
  generalize hsymbols : symbols ++ [symbol] = symbols' at h
  induction h with
  | whole => simp at hsymbols
  | advance h =>
    obtain ⟨rfl, hsymbol⟩ := List.append_inj' hsymbols rfl
    cases hsymbol
    exact hnext (testBit_read h.suffix (hserves h))
  | expect h _ ih => exact testBit_of_settled hsettled h.suffix (ih hsymbols)

/-- Some quiet station serves any symbols. -/
theorem exists_serves (symbols : List Symbol) :
    ∃ station, quiet station = true ∧ Serves station symbols := by
  obtain ⟨stations, hterminus, hgood⟩ := exists_of_explore explore_terminus (by simp)
  simp only [Bool.and_eq_true] at hgood
  suffices h : ∃ station ∈ stations, Serves station symbols by
    obtain ⟨station, hmem, hserves⟩ := h
    exact ⟨station, (hgood station hmem).1.2, hserves⟩
  have hterminus : terminus ∈ stations := hterminus terminus (by simp)
  induction symbols using List.reverseRecOn with
  | nil => exact ⟨terminus, hterminus, serves_terminus (hgood _ hterminus).1.1⟩
  | append_singleton symbols symbol ih =>
    obtain ⟨station, hmem, hserves⟩ := ih
    cases hread : Nat.beq ((station &&& expecting symbol) >>> 1) 0 with
    | true =>
      -- nothing is possible after the symbol, so any station will do
      refine ⟨station, hmem, hserves.append (hgood _ hmem).1.1 fun hplace => ?_⟩
      rw [beq_zero_of_testBit hplace] at hread
      cases hread
    | false =>
      have hsuccessor : enter ((station &&& expecting symbol) >>> 1) ∈ stations := by
        refine (hgood _ hmem).2 _ (List.mem_filterMap.2 ⟨symbol, symbol.mem_all, ?_⟩)
        simp only [hread, cond_false]
      exact ⟨_, hsuccessor, hserves.append (hgood _ hsuccessor).1.1 testBit_enter⟩

/-! ## One thing to do -/

theorem Ahead.not_mem_of_disjoint {a b : Ahead} (h : a.disjoint b = true) {next : Next}
    (ha : next ∈ a) : next ∉ b := by
  intro hb
  rw [disjoint, beq_iff_eq] at h
  rw [← contains_iff, contains] at ha hb
  have hbit := congrArg (·.getLsbD next.place) h
  simp [ha, hb] at hbit

theorem quiet_spec {station : Nat} (h : quiet station = true) {production : Production}
    (hmark : station.testBit (mark production []) = true) :
    (∀ other : Production, station.testBit (mark other []) = true →
      production = other ∨ (follow production.lhs).disjoint (follow other.lhs) = true) ∧
    ∀ kind : Terminal, some kind ∈ follow production.lhs →
      Nat.beq (station &&& expecting (.terminal kind)) 0 = true := by
  simp only [quiet, List.all_eq_true, List.mem_filter, Production.mem_all, true_and,
    Bool.and_eq_true, Bool.or_eq_true, decide_eq_true_eq, Bool.not_eq_true',
    Terminal.mem_all, forall_const] at h
  obtain ⟨hothers, hkinds⟩ := h production hmark
  refine ⟨hothers, fun kind hkind => (hkinds kind).resolve_left ?_⟩
  rw [Ahead.contains_iff.2 hkind]
  exact Bool.noConfusion

/-- Two productions are never complete before the same. -/
theorem Possible.complete_unique {symbols : List Symbol} {production other : Production}
    {next : Next} (h : Possible symbols production [] next)
    (hother : Possible symbols other [] next) : production = other := by
  obtain ⟨station, hquiet, hserves⟩ := exists_serves symbols
  rcases (quiet_spec hquiet (hserves h)).1 other (hserves hother) with heq | hdisjoint
  · exact heq
  · exact absurd hother.mem_follow (Ahead.not_mem_of_disjoint hdisjoint h.mem_follow)

/-- Where a production is complete before a token, no production expects the token. -/
theorem Possible.not_expected {symbols : List Symbol} {production : Production} {kind : Terminal}
    (h : Possible symbols production [] (some kind)) {other : Production} {rest : List Symbol}
    {next : Next} : ¬ Possible symbols other (.terminal kind :: rest) next := by
  intro hother
  obtain ⟨station, hquiet, hserves⟩ := exists_serves symbols
  have hzero := (quiet_spec hquiet (hserves h)).2 kind h.mem_follow
  rw [beq_zero_of_testBit (testBit_and (hserves hother) (testBit_expecting hother.suffix))] at hzero
  cases hzero

end Resumable.Parser
