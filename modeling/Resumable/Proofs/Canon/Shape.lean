import Mathlib
import Resumable.Canon.Node
import Resumable.Proofs.Except

/-!
# The shape of canonical trees

The tree of a node has the shape that its tags call for, and it determines the
node.
-/

namespace Resumable.Canon

/-! ## Tags -/

@[simp] theorem Tag.ofText?_text (tag : Tag) : Tag.ofText? tag.text = some tag := by
  cases tag <;> rfl

theorem Tag.text_injective {tag other : Tag} (h : tag.text = other.text) : tag = other := by
  have := congrArg Tag.ofText? h
  simpa using this

@[simp] theorem tagOf?_tagged (tag : Tag) (children : List Tree) :
    tagOf? (tagged tag children) = some tag :=
  Tag.ofText?_text tag

@[simp] theorem tagged_inj {tag other : Tag} {children others : List Tree} :
    tagged tag children = tagged other others ↔ tag = other ∧ children = others := by
  constructor
  · intro h
    simp only [tagged, Tree.list.injEq, List.cons.injEq, Tree.atom.injEq] at h
    exact ⟨Tag.text_injective h.1, h.2⟩
  · rintro ⟨rfl, rfl⟩
    rfl

theorem FunctionKind.ofText?_eq_some {text : String} {kind : FunctionKind} :
    FunctionKind.ofText? text = some kind ↔ text = kind.tag.text := by
  constructor
  · intro h
    have := List.find?_some h
    simpa using (beq_iff_eq.mp this).symm
  · rintro rfl
    cases kind <;> rfl

theorem FunctionKind.tag_injective {kind other : FunctionKind} (h : kind.tag = other.tag) :
    kind = other := by
  cases kind <;> cases other <;> first | rfl | cases h

/-! ## Nodes have the right shape -/

theorem checkShape_tagged {tag : Tag} {children : List Tree}
    (h : children.length = tag.slots.length) :
    checkShape (tagged tag children) = checkSlots tag tag.slots children := by
  have htag : tagOf? (.list (.atom tag.text :: children)) = some tag := tagOf?_tagged tag children
  simp only [tagged, checkShape, htag, h, if_true]

section Slots

variable {tag : Tag} {slots : List Slot} {children : List Tree}

@[simp] theorem checkSlots_nil : checkSlots tag slots [] = .ok () := by
  rw [checkSlots]

@[simp] theorem checkSlots_atom (text : String) :
    checkSlots tag (.atom :: slots) (.atom text :: children) = checkSlots tag slots children := by
  rw [checkSlots]
  exacts [rfl, nofun, nofun]

@[simp] theorem checkSlots_atoms (names : List String) :
    checkSlots tag (.atoms :: slots) (.atoms names :: children) = checkSlots tag slots children := by
  have hatoms : checkPlain tag .atoms (.atoms names) = .ok () := by
    simp [Tree.atoms, checkPlain, isAtom]
  rw [checkSlots, hatoms]
  exacts [rfl, nofun, nofun]

@[simp] theorem checkSlots_label (label : Option String) :
    checkSlots tag (.label :: slots) (labelTree label :: children)
      = checkSlots tag slots children := by
  cases label <;> rw [labelTree, checkSlots]
  exacts [rfl, nofun, nofun, rfl, nofun, nofun]

theorem checkSlots_node {child : Tree} (h : checkShape child = .ok ()) :
    checkSlots tag (.node :: slots) (child :: children) = checkSlots tag slots children := by
  rw [checkSlots, h]
  rfl

theorem checkSlots_nodes {items : List Tree} (h : checkShapes items = .ok ()) :
    checkSlots tag (.nodes :: slots) (.list items :: children) = checkSlots tag slots children := by
  rw [checkSlots, h]
  rfl

end Slots

mutual

theorem checkShape_toTree : (node : Node) → checkShape node.toTree = .ok ()
  | .function kind name parameters locals body => by
      have hslots : kind.tag.slots = [.atom, .atoms, .atoms, .node] := by cases kind <;> rfl
      rw [Node.toTree, checkShape_tagged (by rw [hslots]; rfl), hslots]
      simp [checkSlots_node (checkShape_toTree body)]
  | .block statements => by
      rw [Node.toTree, checkShape_tagged rfl]
      simp [Tag.slots, checkSlots_nodes (checkShapes_treesOf statements)]
  | .expression value => by
      rw [Node.toTree, checkShape_tagged rfl]
      simp [Tag.slots, checkSlots_node (checkShape_toTree value)]
  | .returning value => by
      rw [Node.toTree, checkShape_tagged rfl]
      simp [Tag.slots, checkSlots_node (checkShape_toTree value)]
  | .yieldBreak => by
      rw [Node.toTree, checkShape_tagged rfl]
      simp
  | .conditional condition thenPart elsePart => by
      rw [Node.toTree, checkShape_tagged rfl]
      simp [Tag.slots, checkSlots_node (checkShape_toTree condition),
        checkSlots_node (checkShape_toTree thenPart), checkSlots_node (checkShape_toTree elsePart)]
  | .labeled label statement => by
      rw [Node.toTree, checkShape_tagged rfl]
      simp [Tag.slots, checkSlots_node (checkShape_toTree statement)]
  | .breaking label => by
      rw [Node.toTree, checkShape_tagged rfl]
      simp [Tag.slots]
  | .continuing label => by
      rw [Node.toTree, checkShape_tagged rfl]
      simp [Tag.slots]
  | .loop label condition body => by
      rw [Node.toTree, checkShape_tagged rfl]
      simp [Tag.slots, checkSlots_node (checkShape_toTree condition),
        checkSlots_node (checkShape_toTree body)]
  | .tryCatch body exception handler => by
      rw [Node.toTree, checkShape_tagged rfl]
      simp [Tag.slots, checkSlots_node (checkShape_toTree body),
        checkSlots_node (checkShape_toTree handler)]
  | .tryFinally body finalizer => by
      rw [Node.toTree, checkShape_tagged rfl]
      simp [Tag.slots, checkSlots_node (checkShape_toTree body),
        checkSlots_node (checkShape_toTree finalizer)]
  | .constant text => by
      rw [Node.toTree, checkShape_tagged rfl]
      simp [Tag.slots]
  | .reference name => by
      rw [Node.toTree, checkShape_tagged rfl]
      simp [Tag.slots]
  | .assignment name value => by
      rw [Node.toTree, checkShape_tagged rfl]
      simp [Tag.slots, checkSlots_node (checkShape_toTree value)]
  | .call name arguments => by
      rw [Node.toTree, checkShape_tagged rfl]
      simp [Tag.slots, checkSlots_nodes (checkShapes_treesOf arguments)]
  | .await value => by
      rw [Node.toTree, checkShape_tagged rfl]
      simp [Tag.slots, checkSlots_node (checkShape_toTree value)]
  | .yield value => by
      rw [Node.toTree, checkShape_tagged rfl]
      simp [Tag.slots, checkSlots_node (checkShape_toTree value)]
  | .yieldStar value => by
      rw [Node.toTree, checkShape_tagged rfl]
      simp [Tag.slots, checkSlots_node (checkShape_toTree value)]
  | .throwing value => by
      rw [Node.toTree, checkShape_tagged rfl]
      simp [Tag.slots, checkSlots_node (checkShape_toTree value)]

theorem checkShapes_treesOf : (nodes : List Node) → checkShapes (treesOf nodes) = .ok ()
  | [] => by rw [treesOf, checkShapes]
  | node :: nodes => by
      rw [treesOf, checkShapes, checkShape_toTree node]
      exact checkShapes_treesOf nodes

end

/-! ## Trees determine nodes -/

theorem labelTree_injective {label other : Option String} (h : labelTree label = labelTree other) :
    label = other := by
  cases label <;> cases other <;> simp_all [labelTree]

theorem atoms_injective {names others : List String} (h : Tree.atoms names = Tree.atoms others) :
    names = others := by
  simp only [Tree.atoms, Tree.list.injEq] at h
  exact List.map_injective_iff.mpr (fun _ _ => Tree.atom.inj) h

mutual

theorem toTree_injective : {node other : Node} → node.toTree = other.toTree → node = other
  | .function kind name parameters locals body, other, h => by
      cases other <;> simp [Node.toTree] at h
      obtain ⟨hkind, rfl, hparameters, hlocals, hbody⟩ := h
      rw [FunctionKind.tag_injective hkind, atoms_injective hparameters, atoms_injective hlocals,
        toTree_injective hbody]
  | .block statements, other, h => by
      cases other <;> simp [Node.toTree] at h
      rw [treesOf_injective h]
  | .expression value, other, h => by
      cases other <;> simp [Node.toTree] at h
      rw [toTree_injective h]
  | .returning value, other, h => by
      cases other <;> simp [Node.toTree] at h
      rw [toTree_injective h]
  | .yieldBreak, other, h => by
      cases other <;> simp [Node.toTree] at h
      rfl
  | .conditional condition thenPart elsePart, other, h => by
      cases other <;> simp [Node.toTree] at h
      rw [toTree_injective h.1, toTree_injective h.2.1, toTree_injective h.2.2]
  | .labeled label statement, other, h => by
      cases other <;> simp [Node.toTree] at h
      rw [h.1, toTree_injective h.2]
  | .breaking label, other, h => by
      cases other <;> simp [Node.toTree] at h
      rw [h]
  | .continuing label, other, h => by
      cases other <;> simp [Node.toTree] at h
      rw [h]
  | .loop label condition body, other, h => by
      cases other <;> simp [Node.toTree] at h
      rw [labelTree_injective h.1, toTree_injective h.2.1, toTree_injective h.2.2]
  | .tryCatch body exception handler, other, h => by
      cases other <;> simp [Node.toTree] at h
      rw [toTree_injective h.1, h.2.1, toTree_injective h.2.2]
  | .tryFinally body finalizer, other, h => by
      cases other <;> simp [Node.toTree] at h
      rw [toTree_injective h.1, toTree_injective h.2]
  | .constant text, other, h => by
      cases other <;> simp [Node.toTree] at h
      rw [h]
  | .reference name, other, h => by
      cases other <;> simp [Node.toTree] at h
      rw [h]
  | .assignment name value, other, h => by
      cases other <;> simp [Node.toTree] at h
      rw [h.1, toTree_injective h.2]
  | .call name arguments, other, h => by
      cases other <;> simp [Node.toTree] at h
      rw [h.1, treesOf_injective h.2]
  | .await value, other, h => by
      cases other <;> simp [Node.toTree] at h
      rw [toTree_injective h]
  | .yield value, other, h => by
      cases other <;> simp [Node.toTree] at h
      rw [toTree_injective h]
  | .yieldStar value, other, h => by
      cases other <;> simp [Node.toTree] at h
      rw [toTree_injective h]
  | .throwing value, other, h => by
      cases other <;> simp [Node.toTree] at h
      rw [toTree_injective h]

theorem treesOf_injective : {nodes others : List Node} → treesOf nodes = treesOf others →
    nodes = others
  | [], [], _ => rfl
  | [], _ :: _, h => by simp [treesOf] at h
  | _ :: _, [], h => by simp [treesOf] at h
  | node :: nodes, other :: others, h => by
      simp only [treesOf, List.cons.injEq] at h
      rw [toTree_injective h.1, treesOf_injective h.2]

end

end Resumable.Canon
