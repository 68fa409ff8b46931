import ComponentLang.Markup.Basic
import ComponentLang.Token.Rule

/-!
# View trees

The view of a component is a forest of nodes.

* `Branch` : a body under a condition; without one it is taken when nothing else is;
* `Chain` : a condition and its alternates, each linked to the next;
* `ViewNode` : the nodes;
* `ViewNode.childLists` : the bodies that a node holds, in order;
* `ViewNode.setChildren`, `setBranches`, `addAlternate` : filling in what a block holds.
-/

namespace ComponentLang

/-- A body of nodes under a condition. -/
structure Branch (ν : Type) where
  condition : Option Text
  children : List ν
  line : Int

/-- A first branch and the alternates tried after it. -/
inductive Chain (ν : Type) where
  | last (branch : Branch ν)
  | link (branch : Branch ν) (alternate : Chain ν)

namespace Chain

variable {ν : Type}

/-- The branch tried first. -/
def first : Chain ν → Branch ν
  | .last b => b
  | .link b _ => b

/-- What is tried after the first branch. -/
def alternate? : Chain ν → Option (Chain ν)
  | .last _ => none
  | .link _ alternate => some alternate

/-- The branches, in the order in which they are tried. -/
def branches : Chain ν → List (Branch ν)
  | .last b => [b]
  | .link b alternate => b :: alternate.branches

/-- Links a second chain to the end of a first. -/
def withAlternate : Chain ν → Chain ν → Chain ν
  | .last b, alternate => .link b alternate
  | .link b rest, alternate => .link b (rest.withAlternate alternate)

/-- Changes the first branch. -/
def mapFirst (f : Branch ν → Branch ν) : Chain ν → Chain ν
  | .last b => .last (f b)
  | .link b alternate => .link (f b) alternate

theorem branches_withAlternate (c a : Chain ν) :
    (c.withAlternate a).branches = c.branches ++ a.branches := by
  induction c with
  | last b => rfl
  | link b rest ih => simp [withAlternate, branches, ih]

end Chain

/-- A node of a view. -/
inductive ViewNode where
  | text (content : Text) (mode : TextMode) (line : Int)
  | element (tag : Text) (attributes : Table Text) (ref : Option Text) (children : List ViewNode)
      (line : Int)
  | fragment (children : List ViewNode) (line : Int)
  | each (list item : Text) (children : List ViewNode) (line : Int)
  | cond (chain : Chain ViewNode)
  | choice (subject : Text) (cases : List (Branch ViewNode)) (fallback : Option (Branch ViewNode))
      (line : Int)
  | slot (name : Text) (line : Int)

namespace ViewNode

/-- The line on which the node begins. -/
def line : ViewNode → Int
  | .text _ _ l => l
  | .element _ _ _ _ l => l
  | .fragment _ l => l
  | .each _ _ _ l => l
  | .cond chain => chain.first.line
  | .choice _ _ _ l => l
  | .slot _ l => l

/-- The bodies that the node holds. -/
def childLists : ViewNode → List (List ViewNode)
  | .text _ _ _ => []
  | .element _ _ _ children _ => [children]
  | .fragment children _ => [children]
  | .each _ _ children _ => [children]
  | .cond chain => chain.branches.map Branch.children
  | .choice _ cases fallback _ => (cases ++ fallback.toList).map Branch.children
  | .slot _ _ => []

/-- Fills in the body of a node that has one of its own. -/
def setChildren (children : List ViewNode) : ViewNode → ViewNode
  | .element tag attributes ref _ l => .element tag attributes ref children l
  | .fragment _ l => .fragment children l
  | .each list item _ l => .each list item children l
  | .cond chain => .cond (chain.mapFirst fun b => { b with children := children })
  | node => node

/-- Fills in the branches of a choice. -/
def setBranches (cases : List (Branch ViewNode)) (fallback : Option (Branch ViewNode)) :
    ViewNode → ViewNode
  | .choice subject _ _ l => .choice subject cases fallback l
  | node => node

/-- Links one more branch to the end of a conditional node. -/
def addAlternate (branch : Branch ViewNode) : ViewNode → ViewNode
  | .cond chain => .cond (chain.withAlternate (.last branch))
  | node => node

/-- The node is conditional. -/
def isCond : ViewNode → Bool
  | .cond _ => true
  | _ => false

end ViewNode

/-- A tag names another component. -/
def namesComponent (tag : Text) : Bool := isCapitalised tag

end ComponentLang
