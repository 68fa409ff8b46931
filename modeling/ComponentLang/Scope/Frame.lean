import ComponentLang.Manifest

/-!
# Open blocks

While a component is read, each block that is still open is a frame.

* `Block` : the kinds of blocks, with what they have collected so far;
* `ViewRole`, `LogicOwner` : which node or declaration a block belongs to. It is already in its
  list, at a place that the block remembers;
* `Frame` : a block, with the line that opened it and its depth.
-/

namespace ComponentLang

/-- What the nodes collected in a view block become. -/
inductive ViewRole where
  /-- The body of the node at the place `slot` of the list around it. -/
  | node (slot : Nat)
  /-- One more branch of the conditional node at the place `slot`. -/
  | alternate (slot : Nat) (condition : Option Text)
  /-- A branch of the choice around it. -/
  | branch (condition : Option Text)
deriving DecidableEq, Repr

/-- Whose body a logic block is. -/
inductive LogicOwner where
  | function (slot : Nat)
  | watcher (slot : Nat)
  | persona (slot : Nat)
  /-- The block at the place `slot` of the body around it. -/
  | nested (slot : Nat)
deriving DecidableEq, Repr

/-- An open block and what it has collected. -/
inductive Block where
  /-- A view, whose nodes go to the forest of the manifest. -/
  | forest
  | view (role : ViewRole) (children : List ViewNode)
  | choice (slot : Nat) (cases : List (Branch ViewNode)) (fallback : Option (Branch ViewNode))
  /-- The mount hook, whose items go to the manifest. -/
  | mount
  | logic (owner : LogicOwner) (body : List LogicItem)
  | suite (name : Option Text)
  | style
  | rule (slot : Nat) (declarations : List Text)
  | head (lines : List Text)

/-- An open block and where it began. -/
structure Frame where
  depth : Int
  line : Int
  block : Block

end ComponentLang
