/-!
# Trees

A tree is an atom or a list of trees. Canonical functions and the
continuation-passing representation are both printed as trees, and reading
gives trees back.
-/

namespace Resumable

/-- An S-expression: an atom, or a list (possibly empty) of trees. -/
inductive Tree where
  | atom (text : String)
  | list (items : List Tree)
  deriving Repr, Inhabited

namespace Tree

/-- A list of atoms. -/
def atoms (names : List String) : Tree :=
  .list (names.map .atom)

mutual

/-- Whether two trees are the same. -/
def same : Tree → Tree → Bool
  | .atom a, .atom b => a == b
  | .list as, .list bs => sameAll as bs
  | _, _ => false

/-- Whether two lists of trees are the same. -/
def sameAll : List Tree → List Tree → Bool
  | [], [] => true
  | a :: as, b :: bs => same a b && sameAll as bs
  | _, _ => false

end

mutual

theorem same_eq_true_iff : (a b : Tree) → (same a b = true ↔ a = b)
  | .atom a, .atom b => by simp [same]
  | .list as, .list bs => by simp [same, sameAll_eq_true_iff as bs]
  | .atom _, .list _ => by simp [same]
  | .list _, .atom _ => by simp [same]

theorem sameAll_eq_true_iff : (as bs : List Tree) → (sameAll as bs = true ↔ as = bs)
  | [], [] => by simp [sameAll]
  | a :: as, b :: bs => by
      simp [sameAll, same_eq_true_iff a b, sameAll_eq_true_iff as bs]
  | [], _ :: _ => by simp [sameAll]
  | _ :: _, [] => by simp [sameAll]

end

instance : DecidableEq Tree := fun a b =>
  decidable_of_iff (same a b = true) (same_eq_true_iff a b)

mutual

/-- The atoms of a tree, from left to right. -/
def leaves : Tree → List String
  | .atom text => [text]
  | .list items => leavesAll items

/-- The atoms of some trees, from left to right. -/
def leavesAll : List Tree → List String
  | [] => []
  | t :: ts => leaves t ++ leavesAll ts

end

end Tree

end Resumable
