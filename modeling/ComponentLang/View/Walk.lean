import ComponentLang.View.Node

/-!
# Walking through a view

* `ViewNode.walk`, `walkAll` : all the nodes, each before what it holds. The alternates of a
  condition are no nodes of their own, but what they hold is walked through;
* `walk_eq` : a walk is the node and then the walks through its bodies;
* `walkAll_eq` : a walk through a forest is the walks through its nodes.
-/

namespace ComponentLang

mutual

/-- The node and all the nodes under it. -/
def ViewNode.walk : ViewNode → List ViewNode
  | .text content mode l => [.text content mode l]
  | .element tag attributes ref children l =>
    .element tag attributes ref children l :: walkAll children
  | .fragment children l => .fragment children l :: walkAll children
  | .each list item children l => .each list item children l :: walkAll children
  | .cond chain => .cond chain :: walkChain chain
  | .choice subject cases fallback l =>
    .choice subject cases fallback l :: (walkBranches cases ++ walkFallback fallback)
  | .slot name l => [.slot name l]

/-- The nodes of a forest, each before the nodes under it. -/
def walkAll : List ViewNode → List ViewNode
  | [] => []
  | node :: rest => node.walk ++ walkAll rest

/-- The nodes under a branch. -/
def walkBranch : Branch ViewNode → List ViewNode
  | ⟨_, children, _⟩ => walkAll children

/-- The nodes under the branches of a chain. -/
def walkChain : Chain ViewNode → List ViewNode
  | .last b => walkBranch b
  | .link b alternate => walkBranch b ++ walkChain alternate

/-- The nodes under a list of branches. -/
def walkBranches : List (Branch ViewNode) → List ViewNode
  | [] => []
  | b :: rest => walkBranch b ++ walkBranches rest

/-- The nodes under a branch that may be missing. -/
def walkFallback : Option (Branch ViewNode) → List ViewNode
  | none => []
  | some b => walkBranch b

end

theorem walkAll_eq (nodes : List ViewNode) : walkAll nodes = nodes.flatMap ViewNode.walk := by
  induction nodes with
  | nil => simp [walkAll]
  | cons node rest ih => simp [walkAll, ih]

theorem walkBranch_eq (b : Branch ViewNode) : walkBranch b = walkAll b.children := by
  cases b; simp [walkBranch]

theorem walkChain_eq (c : Chain ViewNode) :
    walkChain c = (c.branches.map Branch.children).flatMap walkAll := by
  induction c with
  | last b => simp [walkChain, Chain.branches, walkBranch_eq]
  | link b rest ih => simp [walkChain, Chain.branches, walkBranch_eq, ih]

theorem walkBranches_eq (bs : List (Branch ViewNode)) :
    walkBranches bs = (bs.map Branch.children).flatMap walkAll := by
  induction bs with
  | nil => simp [walkBranches]
  | cons b rest ih => simp [walkBranches, walkBranch_eq, ih]

theorem walk_eq (node : ViewNode) : node.walk = node :: node.childLists.flatMap walkAll := by
  cases node with
  | choice subject cases fallback l =>
    cases fallback <;>
      simp [ViewNode.walk, ViewNode.childLists, walkBranches_eq, walkFallback, walkBranch_eq]
  | cond chain => simp [ViewNode.walk, ViewNode.childLists, walkChain_eq]
  | _ => simp [ViewNode.walk, ViewNode.childLists]

end ComponentLang
