import Mathlib
import Resumable.Grammar.Production

/-!
# All symbols and productions

The lists of all kinds of tokens, phrases and productions, by which a property of
each of them can be checked.
-/

namespace Resumable.Grammar

/-- All kinds of tokens. -/
def Terminal.all : List Terminal :=
  (List.range 31).map .ofNat

theorem Terminal.mem_all (kind : Terminal) : kind ∈ Terminal.all :=
  List.mem_map.2 ⟨kind.ctorIdx, by cases kind <;> decide, kind.ofNat_ctorIdx⟩

/-- All phrases. A phrase that may stand first in another one comes after it. -/
def Nonterminal.all : List Nonterminal :=
  (List.range 29).map .ofNat

theorem Nonterminal.mem_all (phrase : Nonterminal) : phrase ∈ Nonterminal.all :=
  List.mem_map.2 ⟨phrase.ctorIdx, by cases phrase <;> decide, phrase.ofNat_ctorIdx⟩

/-- All symbols. -/
def Symbol.all : List Symbol :=
  Terminal.all.map .terminal ++ Nonterminal.all.map .nonterminal

theorem Symbol.mem_all (symbol : Symbol) : symbol ∈ Symbol.all := by
  cases symbol with
  | terminal kind => simp [Symbol.all, kind.mem_all]
  | nonterminal phrase => simp [Symbol.all, phrase.mem_all]

theorem Terminal.ctorIdx_inj {kind kind' : Terminal} :
    kind.ctorIdx = kind'.ctorIdx ↔ kind = kind' :=
  ⟨fun h => by rw [← Terminal.ofNat_ctorIdx kind, h, Terminal.ofNat_ctorIdx], congrArg _⟩

theorem Nonterminal.ctorIdx_inj {phrase phrase' : Nonterminal} :
    phrase.ctorIdx = phrase'.ctorIdx ↔ phrase = phrase' :=
  ⟨fun h => by rw [← Nonterminal.ofNat_ctorIdx phrase, h, Nonterminal.ofNat_ctorIdx], congrArg _⟩

theorem Production.mem_all (production : Production) : production ∈ Production.all := by
  cases production <;> decide

end Resumable.Grammar
