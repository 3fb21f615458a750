import Resumable.Proofs.Canon.Shape

/-!
# Trees of the right shape

The trees that have the shape their tags call for are just the trees of nodes: the slots
of a tag ask for what the node with this tag is made of. Where a tree does not have that
shape, the culprit is the tree or a part of it.
-/

namespace Resumable

/-- A tree is another one, or a part of it at any depth. -/
inductive Tree.PartOf (part : Tree) : Tree → Prop where
  | whole : PartOf part part
  | item {item : Tree} {items : List Tree} (mem : item ∈ items) (rest : PartOf part item) :
      PartOf part (.list items)

namespace Canon

/-! ## What fills the slots -/

/-- What a slot is filled with. -/
def Slot.Filling : Slot → Type
  | .atom => String
  | .atoms => List String
  | .node => Node
  | .nodes => List Node
  | .label => Option String

/-- The child that fills a slot. -/
def Slot.tree : (slot : Slot) → slot.Filling → Tree
  | .atom, text => .atom text
  | .atoms, names => .atoms names
  | .node, form => Node.toTree form
  | .nodes, forms => .list (treesOf forms)
  | .label, name => labelTree name

/-- What some slots are filled with, one by one. -/
def Fillings : List Slot → Type
  | [] => Unit
  | slot :: slots => slot.Filling × Fillings slots

/-- The children that fill some slots. -/
def childTrees : (slots : List Slot) → Fillings slots → List Tree
  | [], () => []
  | slot :: slots, (filling, fillings) => slot.tree filling :: childTrees slots fillings

/-- The node with a tag whose slots are filled. -/
def Tag.node : (tag : Tag) → Fillings tag.slots → Node
  | .sync, (name, parameters, locals, body, ()) => .function .sync name parameters locals body
  | .async, (name, parameters, locals, body, ()) => .function .async name parameters locals body
  | .syncStar, (name, parameters, locals, body, ()) =>
      .function .syncStar name parameters locals body
  | .block, (statements, ()) => .block statements
  | .expression, (value, ()) => .expression value
  | .return_, (value, ()) => .returning value
  | .yieldBreak, () => .yieldBreak
  | .if_, (condition, thenPart, elsePart, ()) => .conditional condition thenPart elsePart
  | .label, (name, statement, ()) => .labeled name statement
  | .break_, (name, ()) => .breaking name
  | .continue_, (name, ()) => .continuing name
  | .while_, (name, condition, body, ()) => .loop name condition body
  | .tryCatch, (body, exception, handler, ()) => .tryCatch body exception handler
  | .tryFinally, (body, finalizer, ()) => .tryFinally body finalizer
  | .constant, (text, ()) => .constant text
  | .variable_, (name, ()) => .reference name
  | .assignment, (name, value, ()) => .assignment name value
  | .call, (name, arguments, ()) => .call name arguments
  | .await, (value, ()) => .await value
  | .yield, (value, ()) => .yield value
  | .yieldStar, (value, ()) => .yieldStar value
  | .throw, (value, ()) => .throwing value

theorem toTree_node (tag : Tag) (fillings : Fillings tag.slots) :
    (tag.node fillings).toTree = tagged tag (childTrees tag.slots fillings) := by
  cases tag <;> rfl

theorem eq_tagged_of_tagOf? {first : Tree} {children : List Tree} {tag : Tag}
    (h : tagOf? (.list (first :: children)) = some tag) :
    Tree.list (first :: children) = tagged tag children := by
  cases first with
  | atom text =>
    have htext : tag.text = text := by simpa using List.find?_some h
    rw [tagged, htext]
  | list items => cases h

/-! ## What a check tells -/

/-- What a check of some trees tells: if they pass, they are as they should be, and if not,
the culprit is part of one of them. -/
def Tells (trees : List Tree) (proper : Prop) : Except Misshapen Unit → Prop
  | .ok () => proper
  | .error fault => ∃ tree ∈ trees, fault.culprit.PartOf tree

namespace Tells

variable {trees others : List Tree} {proper further : Prop} {first next : Except Misshapen Unit}

theorem blame {tree : Tree} (h : tree ∈ trees) (complaint : Complaint) :
    Tells trees proper (.error ⟨complaint, tree⟩) :=
  ⟨tree, h, .whole⟩

theorem imp (h : Tells trees proper first) (hproper : proper → further) :
    Tells trees further first := by
  match first with
  | .ok () => exact hproper h
  | .error fault => exact h

/-- What is told of some items of a list is told of the list. -/
theorem list {items : List Tree} (h : Tells trees proper first) (hitems : trees ⊆ items) :
    Tells [.list items] proper first := by
  match first with
  | .ok () => exact h
  | .error fault =>
    obtain ⟨tree, hmem, hpart⟩ := h
    exact ⟨.list items, List.mem_cons_self, .item (hitems hmem) hpart⟩

/-- Two checks, one after the other. -/
theorem bind (h : Tells trees proper first) (hnext : Tells others further next) :
    Tells (trees ++ others) (proper ∧ further) (first >>= fun _ => next) := by
  match first, next with
  | .ok (), .ok () => exact ⟨h, hnext⟩
  | .ok (), .error fault =>
    obtain ⟨tree, hmem, hpart⟩ := hnext
    exact ⟨tree, List.mem_append_right _ hmem, hpart⟩
  | .error fault, _ =>
    obtain ⟨tree, hmem, hpart⟩ := h
    exact ⟨tree, List.mem_append_left _ hmem, hpart⟩

end Tells

theorem exists_atoms {items : List Tree} (h : items.all isAtom = true) :
    ∃ names, Tree.list items = .atoms names := by
  induction items with
  | nil => exact ⟨[], rfl⟩
  | cons item items ih =>
    rw [List.all_cons, Bool.and_eq_true] at h
    obtain ⟨names, hnames⟩ := ih h.2
    cases item with
    | atom text => exact ⟨text :: names, by simpa [Tree.atoms] using hnames⟩
    | list => cases h.1

/-- A child without nodes in it is told by the plain check. -/
theorem checkPlain_tells (tag : Tag) (slot : Slot) (child : Tree) (hnode : slot ≠ .node)
    (hnodes : ∀ items, slot = .nodes → child ≠ .list items) :
    Tells [child] (∃ filling, child = slot.tree filling) (checkPlain tag slot child) := by
  match slot, child with
  | .atom, .atom text => exact ⟨text, rfl⟩
  | .atom, .list _ => exact .blame List.mem_cons_self _
  | .label, .atom text => exact ⟨some text, rfl⟩
  | .label, .list [] => exact ⟨(none : Option String), rfl⟩
  | .label, .list (_ :: _) => exact .blame List.mem_cons_self _
  | .atoms, .atom _ => exact .blame List.mem_cons_self _
  | .atoms, .list items =>
    by_cases hatoms : items.all isAtom = true
    · rw [checkPlain, if_pos hatoms]
      exact exists_atoms hatoms
    · rw [checkPlain, if_neg hatoms]
      exact .blame List.mem_cons_self _
  | .node, _ => exact absurd rfl hnode
  | .nodes, .atom _ => exact .blame List.mem_cons_self _
  | .nodes, .list items => exact absurd rfl (hnodes items rfl)

/-- A child is checked, and then the other ones. -/
theorem Tells.fill {slot : Slot} {slots : List Slot} {child : Tree} {children : List Tree}
    {first next : Except Misshapen Unit}
    (h : Tells [child] (∃ filling, child = slot.tree filling) first)
    (hnext : Tells children (∃ fillings, children = childTrees slots fillings) next) :
    Tells (child :: children) (∃ fillings, child :: children = childTrees (slot :: slots) fillings)
      (first >>= fun _ => next) := by
  refine (h.bind hnext).imp ?_
  rintro ⟨⟨filling, rfl⟩, fillings, rfl⟩
  exact ⟨(filling, fillings), rfl⟩

mutual

/-- A tree that passes the check is the tree of a node. -/
theorem checkShape_tells : (tree : Tree) →
    Tells [tree] (∃ node : Node, tree = node.toTree) (checkShape tree)
  | .atom _ => by
      rw [checkShape]
      exact .blame List.mem_cons_self _
  | .list [] => by
      rw [checkShape]
      exact .blame List.mem_cons_self _
  | .list (first :: children) => by
      rw [checkShape]
      split
      · exact .blame List.mem_cons_self _
      · next tag htag =>
        split
        · next hlength =>
          rw [eq_tagged_of_tagOf? htag]
          have hslots := checkSlots_tells tag tag.slots children hlength
          refine (hslots.list (List.subset_cons_self _ _)).imp ?_
          rintro ⟨fillings, rfl⟩
          exact ⟨tag.node fillings, (toTree_node tag fillings).symm⟩
        · exact .blame List.mem_cons_self _

theorem checkSlots_tells (tag : Tag) : (slots : List Slot) → (children : List Tree) →
    children.length = slots.length →
    Tells children (∃ fillings, children = childTrees slots fillings)
      (checkSlots tag slots children)
  | [], [], _ => by
      rw [checkSlots]
      exact ⟨(), rfl⟩
  | slot :: slots, child :: children, hlength => by
      have hrest := checkSlots_tells tag slots children (Nat.succ.inj hlength)
      match slot, child with
      | .node, child =>
        rw [checkSlots]
        exact .fill (checkShape_tells child) hrest
      | .nodes, .list items =>
        rw [checkSlots]
        refine .fill (((checkShapes_tells items).list (List.Subset.refl _)).imp ?_) hrest
        rintro ⟨nodes, rfl⟩
        exact ⟨nodes, rfl⟩
      | .nodes, .atom text =>
        rw [checkSlots]
        · exact .fill (checkPlain_tells tag _ _ nofun nofun) hrest
        · nofun
        · nofun
      | .atom, child | .atoms, child | .label, child =>
        rw [checkSlots]
        · exact .fill (checkPlain_tells tag _ _ nofun nofun) hrest
        · nofun
        · nofun

theorem checkShapes_tells : (trees : List Tree) →
    Tells trees (∃ nodes, trees = treesOf nodes) (checkShapes trees)
  | [] => by
      rw [checkShapes]
      exact ⟨[], by rw [treesOf]⟩
  | tree :: trees => by
      rw [checkShapes]
      refine ((checkShape_tells tree).bind (checkShapes_tells trees)).imp ?_
      rintro ⟨⟨node, rfl⟩, nodes, rfl⟩
      exact ⟨node :: nodes, by rw [treesOf]⟩

end

/-- A tree passes the check exactly if it is the tree of a node, that is, put together by
the constructors of nodes. If it does not pass, the culprit is the tree or a part of it. -/
theorem checkShape_eq_ok_iff (tree : Tree) :
    (checkShape tree = .ok () ↔ ∃ node : Node, node.toTree = tree) ∧
      ∀ fault, checkShape tree = .error fault → fault.culprit.PartOf tree := by
  have htells := checkShape_tells tree
  refine ⟨⟨fun h => ?_, ?_⟩, fun fault h => ?_⟩
  · rw [h] at htells
    obtain ⟨node, hnode⟩ := htells
    exact ⟨node, hnode.symm⟩
  · rintro ⟨node, rfl⟩
    exact checkShape_toTree node
  · rw [h] at htells
    obtain ⟨whole, hmem, hpart⟩ := htells
    exact List.mem_singleton.1 hmem ▸ hpart

end Canon

end Resumable
