import ComponentLang.Proofs.Head.Merge
import ComponentLang.Proofs.Lines.Renumber
import ComponentLang.Proofs.Logic.Openers
import ComponentLang.Proofs.Scope.Sketch

/-!
# Scopes after a finished manifest

A scope in which much is finished already is as good as an empty one: the lists of the finished part
stay, and what is added comes after it. Open blocks remember places in lists, so these places move. At
the same time the lines may get new numbers.

* `Manifest.followedBy` : what two manifests say, one after the other;
* `Scope.after base g name s` : the scope `s` as it is when `base` is finished before it, its lines
  are renumbered by `g` and its component has the name `name`;
* `children_after`, `mapChildren_after` : a list of nodes has those of `base` first, if it is the forest;
* `publish_after`, `closeTo_after` : blocks that close fill in what they would fill in alone.
-/

namespace ComponentLang

/-- What two manifests say, the first one first. The name is that of the second, and names of
references and slots are kept once. -/
def Manifest.followedBy (m m' : Manifest) : Manifest where
  name := m'.name
  isSingleton := m.isSingleton || m'.isSingleton
  imports := m.imports ++ m'.imports
  props := m.props ++ m'.props
  state := m.state ++ m'.state
  derived := m.derived ++ m'.derived
  functions := m.functions ++ m'.functions
  lifecycle := m.lifecycle ++ m'.lifecycle
  watchers := m.watchers ++ m'.watchers
  refs := m.refs ++ m'.refs.filter (· ∉ m.refs)
  slots := m.slots ++ m'.slots.filter (· ∉ m.slots)
  styleRules := m.styleRules ++ m'.styleRules
  view := m.view ++ m'.view
  tests := m.tests ++ m'.tests
  queries := m.queries ++ m'.queries
  endpoints := m.endpoints ++ m'.endpoints
  phrases := m.phrases.merge m'.phrases
  head := m.head.merge m'.head

/-! ## Places that move -/

section

variable (base : Manifest) (g : Int → Int)

/-- The nodes of `base` that stand in the innermost list of nodes. -/
def priorNodes : List Frame → List ViewNode
  | ⟨_, _, .view _ _⟩ :: _ => []
  | _ => base.view

/-- The items of `base` that stand in the innermost body of logic. -/
def priorItems : List Frame → List LogicItem
  | ⟨_, _, .logic _ _⟩ :: _ => []
  | _ => base.lifecycle

def ViewRole.after (n : Nat) : ViewRole → ViewRole
  | .node slot => .node (n + slot)
  | .alternate slot condition => .alternate (n + slot) condition
  | .branch condition => .branch condition

def LogicOwner.after (n : Nat) : LogicOwner → LogicOwner
  | .function slot => .function (base.functions.length + slot)
  | .watcher slot => .watcher (base.watchers.length + slot)
  | .persona slot => .persona (base.tests.length + slot)
  | .nested slot => .nested (n + slot)

/-- A block on top of the open blocks `around`. -/
def Block.after (around : List Frame) : Block → Block
  | .view role nodes =>
    .view (role.after (priorNodes base around).length) (nodes.map (ViewNode.renumber g))
  | .choice slot cases fallback =>
    .choice ((priorNodes base around).length + slot) (cases.map (Branch.renumber g))
      (fallback.map (Branch.renumber g))
  | .logic owner items =>
    .logic (owner.after base (priorItems base around).length) (items.map (LogicItem.renumber g))
  | .rule slot declarations => .rule (base.styleRules.length + slot) declarations
  | block => block

def framesAfter : List Frame → List Frame
  | [] => []
  | f :: rest => ⟨f.depth, g f.line, f.block.after base g rest⟩ :: framesAfter rest

/-- The scope `s` when `base` is finished before it. -/
def Scope.after (name : Text) (s : Scope) : Scope where
  manifest := { base.followedBy (s.manifest.renumber g) with name := name }
  frames := framesAfter base g s.frames

end

/-! ## Lists -/

/-- A place in the second part of a list. -/
theorem modify_append_map {α : Type} {h f k : α → α} (hf : ∀ a, k (h a) = h (f a))
    (before l : List α) (slot : Nat) :
    (before ++ l.map h).modify (before.length + slot) k = before ++ (l.modify slot f).map h := by
  induction before with
  | cons a before ih =>
    rw [List.cons_append, List.length_cons, Nat.add_right_comm, List.modify_succ_cons, ih,
      List.cons_append]
  | nil =>
    rw [List.nil_append, List.nil_append, List.length_nil, Nat.zero_add]
    induction l generalizing slot with
    | nil => cases slot <;> rfl
    | cons a l ih =>
      cases slot with
      | zero => simp [hf]
      | succ slot => simp [ih]

/-- A name that the first list has is not taken into the second. -/
theorem register_append_filter (name : Text) (a b : List Text) :
    Manifest.register name (a ++ b.filter (· ∉ a)) =
      a ++ (Manifest.register name b).filter (· ∉ a) := by
  unfold Manifest.register
  by_cases ha : name ∈ a
  · by_cases hb : name ∈ b <;> simp [ha, hb]
  · by_cases hb : name ∈ b <;> simp [ha, hb]

namespace Scope

section

variable {base : Manifest} {g : Int → Int} {n : Text}

/-! ## The innermost lists -/

theorem children_after (s : Scope) :
    (s.after base g n).children =
      priorNodes base s.frames ++ s.children.map (ViewNode.renumber g) := by
  rcases s with ⟨m, _ | ⟨⟨depth, line, block⟩, rest⟩⟩
  · rfl
  · cases block <;> rfl

theorem body_after (s : Scope) :
    (s.after base g n).body =
      priorItems base s.frames ++ s.body.map (LogicItem.renumber g) := by
  rcases s with ⟨m, _ | ⟨⟨depth, line, block⟩, rest⟩⟩
  · rfl
  · cases block <;> rfl

/-- A change of the innermost nodes that leaves those of `base` alone. -/
theorem mapChildren_after {s : Scope} {f f' : List ViewNode → List ViewNode}
    (h : f' (priorNodes base s.frames ++ s.children.map (ViewNode.renumber g)) =
      priorNodes base s.frames ++ (f s.children).map (ViewNode.renumber g)) :
    (s.after base g n).mapChildren f' = (s.mapChildren f).after base g n := by
  rcases s with ⟨m, _ | ⟨⟨depth, line, block⟩, rest⟩⟩
  · exact congrArg (fun v => (⟨{ base.followedBy (m.renumber g) with name := n, view := v }, []⟩ :
      Scope)) h
  · cases block with
    | view role nodes =>
      exact congrArg (fun v => (⟨{ base.followedBy (m.renumber g) with name := n },
        ⟨depth, g line, .view (role.after (priorNodes base rest).length) v⟩ ::
          framesAfter base g rest⟩ : Scope)) h
    | _ =>
      exact congrArg (fun v => (⟨{ base.followedBy (m.renumber g) with name := n, view := v },
        framesAfter base g (⟨depth, line, _⟩ :: rest)⟩ : Scope)) h

theorem mapBody_after {s : Scope} {f f' : List LogicItem → List LogicItem}
    (h : f' (priorItems base s.frames ++ s.body.map (LogicItem.renumber g)) =
      priorItems base s.frames ++ (f s.body).map (LogicItem.renumber g)) :
    (s.after base g n).mapBody f' = (s.mapBody f).after base g n := by
  rcases s with ⟨m, _ | ⟨⟨depth, line, block⟩, rest⟩⟩
  · exact congrArg (fun v => (⟨{ base.followedBy (m.renumber g) with name := n, lifecycle := v }, []⟩ :
      Scope)) h
  · cases block with
    | logic owner items =>
      exact congrArg (fun v => (⟨{ base.followedBy (m.renumber g) with name := n },
        ⟨depth, g line, .logic (owner.after base (priorItems base rest).length) v⟩ ::
          framesAfter base g rest⟩ : Scope)) h
    | _ =>
      exact congrArg (fun v => (⟨{ base.followedBy (m.renumber g) with name := n, lifecycle := v },
        framesAfter base g (⟨depth, line, _⟩ :: rest)⟩ : Scope)) h

theorem priorNodes_mapChildren (f : List ViewNode → List ViewNode) (s : Scope) :
    priorNodes base (s.mapChildren f).frames = priorNodes base s.frames := by
  rcases s with ⟨m, _ | ⟨⟨depth, line, block⟩, rest⟩⟩
  · rfl
  · cases block <;> rfl

theorem priorItems_mapBody (f : List LogicItem → List LogicItem) (s : Scope) :
    priorItems base (s.mapBody f).frames = priorItems base s.frames := by
  rcases s with ⟨m, _ | ⟨⟨depth, line, block⟩, rest⟩⟩
  · rfl
  · cases block <;> rfl

theorem append_after (node : ViewNode) (s : Scope) :
    (s.after base g n).append (node.renumber g) = (s.append node).after base g n := by
  apply mapChildren_after
  simp

theorem appendItem_after (item : LogicItem) (s : Scope) :
    (s.after base g n).appendItem (item.renumber g) = (s.appendItem item).after base g n := by
  apply mapBody_after
  simp

theorem addBranch_after (b : Branch ViewNode) (s : Scope) :
    (s.after base g n).addBranch (b.renumber g) = (s.addBranch b).after base g n := by
  rcases s with ⟨m, _ | ⟨⟨depth, line, block⟩, rest⟩⟩
  · rfl
  · cases block with
    | choice slot cases fallback =>
      cases hc : b.condition <;>
        simp [addBranch, after, framesAfter, Block.after, Branch.renumber, hc]
    | _ => rfl

/-! ## Closing -/

/-- A block fills in an item of the list that it remembers. -/
theorem modify_after {s : Scope} {f f' : ViewNode → ViewNode}
    (hf : ∀ node, f' (node.renumber g) = (f node).renumber g) (slot : Nat) :
    (s.after base g n).mapChildren (·.modify ((priorNodes base s.frames).length + slot) f') =
      (s.mapChildren (·.modify slot f)).after base g n := by
  apply mapChildren_after
  exact modify_append_map hf _ _ _

theorem publishNodes_after (role : ViewRole) (nodes : List ViewNode) (line : Int) (s : Scope) :
    (s.after base g n).publishNodes (role.after (priorNodes base s.frames).length)
        (nodes.map (ViewNode.renumber g)) (g line) =
      (s.publishNodes role nodes line).after base g n := by
  cases role with
  | node slot => exact modify_after (fun node => (node.renumber_setChildren g nodes).symm) slot
  | alternate slot condition =>
    exact modify_after (fun node => (node.renumber_addAlternate g ⟨condition, nodes, line⟩).symm) slot
  | branch condition => exact addBranch_after ⟨condition, nodes, line⟩ s

theorem publishBody_after (owner : LogicOwner) (items : List LogicItem) (s : Scope) :
    (s.after base g n).publishBody (owner.after base (priorItems base s.frames).length)
        (items.map (LogicItem.renumber g)) =
      (s.publishBody owner items).after base g n := by
  cases owner with
  | function slot =>
    have h := modify_append_map (h := FunctionDecl.renumber g)
      (f := fun f => { f with body := items })
      (k := fun f => { f with body := items.map (LogicItem.renumber g) }) (fun _ => rfl)
      base.functions s.manifest.functions slot
    exact congrArg (fun l => (⟨{ base.followedBy (s.manifest.renumber g) with
      name := n, functions := l }, framesAfter base g s.frames⟩ : Scope)) h
  | watcher slot =>
    have h := modify_append_map (h := Watcher.renumber g)
      (f := fun w => { w with body := items })
      (k := fun w => { w with body := items.map (LogicItem.renumber g) }) (fun _ => rfl)
      base.watchers s.manifest.watchers slot
    exact congrArg (fun l => (⟨{ base.followedBy (s.manifest.renumber g) with
      name := n, watchers := l }, framesAfter base g s.frames⟩ : Scope)) h
  | persona slot =>
    have h := modify_append_map (h := PersonaTest.renumber g)
      (f := fun p => { p with body := items })
      (k := fun p => { p with body := items.map (LogicItem.renumber g) }) (fun _ => rfl)
      base.tests s.manifest.tests slot
    exact congrArg (fun l => (⟨{ base.followedBy (s.manifest.renumber g) with
      name := n, tests := l }, framesAfter base g s.frames⟩ : Scope)) h
  | nested slot =>
    apply mapBody_after
    exact modify_append_map (fun item => (item.renumber_setBody g items).symm) _ _ _

theorem publish_after (f : Frame) (s : Scope) :
    publish ⟨f.depth, g f.line, f.block.after base g s.frames⟩ (s.after base g n) =
      (publish f s).after base g n := by
  obtain ⟨depth, line, block⟩ := f
  cases block with
  | view role nodes => exact publishNodes_after role nodes line s
  | choice slot cases fallback =>
    exact modify_after (fun node => (node.renumber_setBranches g cases fallback).symm) slot
  | logic owner items => exact publishBody_after owner items s
  | rule slot declarations =>
    have h := modify_append_map (h := StyleRule.renumber g)
      (f := fun r => { r with declarations := declarations })
      (k := fun r => { r with declarations := declarations }) (fun _ => rfl)
      base.styleRules s.manifest.styleRules slot
    exact congrArg (fun l => (⟨{ base.followedBy (s.manifest.renumber g) with
      name := n, styleRules := l }, framesAfter base g s.frames⟩ : Scope)) h
  | head lines =>
    have h := Head.merge_assoc base.head s.manifest.head (Head.parse (Text.unlines lines))
    exact congrArg (fun x => (⟨{ base.followedBy (s.manifest.renumber g) with
      name := n, head := x }, framesAfter base g s.frames⟩ : Scope)) h
  | _ => rfl

theorem closeTop_after (s : Scope) :
    (s.after base g n).closeTop = s.closeTop.after base g n := by
  rcases s with ⟨m, _ | ⟨f, rest⟩⟩
  · rfl
  · exact publish_after f ⟨m, rest⟩

theorem closeMany_after (k : Nat) (s : Scope) :
    closeMany k (s.after base g n) = (closeMany k s).after base g n := by
  induction k generalizing s with
  | zero => rfl
  | succ k ih => rw [closeMany, closeMany, closeTop_after, ih]

theorem closeTo_after (d : Int) (s : Scope) :
    (s.after base g n).closeTo d = (s.closeTo d).after base g n := by
  have hcount : ((framesAfter base g s.frames).takeWhile (d ≤ ·.depth)).length =
      (s.frames.takeWhile (d ≤ ·.depth)).length := by
    induction s.frames with
    | nil => rfl
    | cons f rest ih =>
      rw [framesAfter, List.takeWhile_cons, List.takeWhile_cons]
      split_ifs <;> simp [ih]
  rw [closeTo, closeTo, ← closeMany_after]
  exact congrArg (closeMany · (s.after base g n)) hcount

end

end Scope

end ComponentLang
