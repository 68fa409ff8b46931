import ComponentLang.Scope.Frame
import ComponentLang.Token.Basic

/-!
# Scopes

A scope is a manifest under construction and the blocks that are open.

* `Scope.children`, `mapChildren` : the list of nodes that a line of the view goes to: that of the
  innermost block, or the forest of the manifest;
* `Scope.body`, `mapBody` : the same for logic;
* `Scope.append`, `appendItem` : one more node or item there;
* `Scope.publish` : what a block leaves behind when it closes;
* `Scope.closeTo` : closes the blocks that are as deep as a line, or deeper.
-/

namespace ComponentLang

/-- A manifest under construction and the open blocks, innermost first. -/
structure Scope where
  manifest : Manifest
  frames : List Frame

namespace Scope

/-- Nothing read yet. -/
def start : Scope := ⟨.empty, []⟩

/-- The innermost open block. -/
def top? (s : Scope) : Option Block := s.frames.head?.map Frame.block

/-- Opens a block at a token. -/
def push (s : Scope) (t : Token) (block : Block) : Scope :=
  { s with frames := ⟨t.depth, t.line, block⟩ :: s.frames }

/-! ## The innermost lists -/

/-- The nodes among which a line of the view stands. -/
def children (s : Scope) : List ViewNode :=
  match s.frames with
  | ⟨_, _, .view _ nodes⟩ :: _ => nodes
  | _ => s.manifest.view

/-- Changes the nodes among which a line of the view stands. -/
def mapChildren (f : List ViewNode → List ViewNode) (s : Scope) : Scope :=
  match s.frames with
  | ⟨depth, line, .view role nodes⟩ :: rest =>
    { s with frames := ⟨depth, line, .view role (f nodes)⟩ :: rest }
  | _ => { s with manifest := { s.manifest with view := f s.manifest.view } }

/-- Adds a node. -/
def append (node : ViewNode) (s : Scope) : Scope := s.mapChildren (· ++ [node])

/-- The items among which a line of logic stands. -/
def body (s : Scope) : List LogicItem :=
  match s.frames with
  | ⟨_, _, .logic _ items⟩ :: _ => items
  | _ => s.manifest.lifecycle

/-- Changes the items among which a line of logic stands. -/
def mapBody (f : List LogicItem → List LogicItem) (s : Scope) : Scope :=
  match s.frames with
  | ⟨depth, line, .logic owner items⟩ :: rest =>
    { s with frames := ⟨depth, line, .logic owner (f items)⟩ :: rest }
  | _ => { s with manifest := { s.manifest with lifecycle := f s.manifest.lifecycle } }

/-- Adds an item of logic. -/
def appendItem (item : LogicItem) (s : Scope) : Scope := s.mapBody (· ++ [item])

/-- Adds a branch to the choice that is innermost. Of several branches without a condition, the
last counts. -/
def addBranch (branch : Branch ViewNode) (s : Scope) : Scope :=
  match s.frames with
  | ⟨depth, line, .choice slot cases fallback⟩ :: rest =>
    let block : Block :=
      if branch.condition.isNone then .choice slot cases (some branch)
      else .choice slot (cases ++ [branch]) fallback
    { s with frames := ⟨depth, line, block⟩ :: rest }
  | _ => s

/-! ## Closing blocks -/

/-- Gives a finished body to the declaration or block that it belongs to. -/
def publishBody (owner : LogicOwner) (items : List LogicItem) (s : Scope) : Scope :=
  let m := s.manifest
  match owner with
  | .function slot =>
    { s with manifest := { m with
        functions := m.functions.modify slot fun f => { f with body := items } } }
  | .watcher slot =>
    { s with manifest := { m with
        watchers := m.watchers.modify slot fun w => { w with body := items } } }
  | .persona slot =>
    { s with manifest := { m with
        tests := m.tests.modify slot fun p => { p with body := items } } }
  | .nested slot => s.mapBody fun around => around.modify slot (LogicItem.setBody items)

/-- Gives finished nodes to the node or choice that they belong to. -/
def publishNodes (role : ViewRole) (nodes : List ViewNode) (line : Int) (s : Scope) : Scope :=
  match role with
  | .node slot => s.mapChildren fun around => around.modify slot (ViewNode.setChildren nodes)
  | .alternate slot condition =>
    s.mapChildren fun around =>
      around.modify slot (ViewNode.addAlternate ⟨condition, nodes, line⟩)
  | .branch condition => s.addBranch ⟨condition, nodes, line⟩

/-- What a block leaves behind in the scope around it. -/
def publish (frame : Frame) (s : Scope) : Scope :=
  match frame.block with
  | .view role nodes => s.publishNodes role nodes frame.line
  | .choice slot cases fallback =>
    s.mapChildren fun around => around.modify slot (ViewNode.setBranches cases fallback)
  | .logic owner items => s.publishBody owner items
  | .rule slot declarations =>
    { s with manifest := { s.manifest with
        styleRules := s.manifest.styleRules.modify slot fun r =>
          { r with declarations := declarations } } }
  | .head lines =>
    { s with manifest := { s.manifest with
        head := s.manifest.head.merge (Head.parse (Text.unlines lines)) } }
  | .forest | .mount | .suite _ | .style => s

/-- Closes the innermost block. -/
def closeTop (s : Scope) : Scope :=
  match s.frames with
  | [] => s
  | frame :: rest => publish frame { s with frames := rest }

/-- Closes the innermost blocks, so many of them. -/
def closeMany : Nat → Scope → Scope
  | 0, s => s
  | n + 1, s => closeMany n s.closeTop

/-- Closes the innermost blocks as long as they are as deep as `depth`, or deeper. -/
def closeTo (depth : Int) (s : Scope) : Scope :=
  closeMany (s.frames.takeWhile (depth ≤ ·.depth)).length s

end Scope

end ComponentLang
