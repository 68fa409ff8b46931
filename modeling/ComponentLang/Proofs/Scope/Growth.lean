import ComponentLang.Proofs.View.Descent
import Mathlib.Data.List.Forall2
import Mathlib.Data.List.Infix

/-!
# Lists that only grow

An open block remembers the place of an item in a list, and fills the item in when it closes. Other
blocks may have their items in the same list. This is safe because lists of items only grow at their
end, and an item stays of its kind whatever is filled in.

* `ItemKind` : the kinds of items that blocks fill in;
* `Grows kind l l'` : `l'` holds at the places of `l` items of the same kinds;
* `Block.item?` : the kind of the item that a block would find if it closed now;
* `Block.fits` : the kinds of items that a block can fill in;
* `Scope.Grows` : all lists of a scope have grown, and no block was opened or closed;
* `Scope.Opens t s s'` : the lists have grown, and then the token `t` may have opened a block, which
  finds an item that it can fill in;
* `grows_closeTop`, `dispatch_opens` : what closing a block does, and what a line does.
-/

namespace ComponentLang

/-- The kinds of items that blocks fill in when they close. -/
inductive ItemKind where
  | element
  | fragment
  | each
  | cond
  | choice
  | function
  | watcher
  | persona
  | block
  | rule
deriving DecidableEq, Repr

/-- The kind of a node, if a block may belong to it. -/
def ViewNode.itemKind? : ViewNode → Option ItemKind
  | .element _ _ _ _ _ => some .element
  | .fragment _ _ => some .fragment
  | .each _ _ _ _ => some .each
  | .cond _ => some .cond
  | .choice _ _ _ _ => some .choice
  | .text _ _ _ => none
  | .slot _ _ => none

/-- The kind of an item of logic, if a block may belong to it. -/
def LogicItem.itemKind? : LogicItem → Option ItemKind
  | .block _ _ _ => some .block
  | _ => none

/-! ## Lists -/

/-- The second list holds at the places of the first items of the same kinds. -/
def Grows {α : Type} (kind : α → Option ItemKind) (l l' : List α) : Prop :=
  l.map kind <+: l'.map kind

theorem map_modify_of_kind {α β : Type} {kind : α → β} {f : α → α} (hf : ∀ a, kind (f a) = kind a)
    (l : List α) (slot : Nat) : (l.modify slot f).map kind = l.map kind := by
  induction l generalizing slot with
  | nil => cases slot <;> rfl
  | cons a l ih =>
    cases slot with
    | zero => simp [hf]
    | succ slot => simpa using ih slot

section

variable {α : Type} {kind : α → Option ItemKind}

theorem Grows.refl (l : List α) : Grows kind l l := List.prefix_refl _

theorem Grows.trans {l l' l'' : List α} (h : Grows kind l l') (h' : Grows kind l' l'') :
    Grows kind l l'' := List.IsPrefix.trans h h'

theorem grows_append (l added : List α) : Grows kind l (l ++ added) := by
  rw [Grows, List.map_append]
  exact List.prefix_append _ _

theorem grows_modify {f : α → α} (hf : ∀ a, kind (f a) = kind a) (l : List α) (slot : Nat) :
    Grows kind l (l.modify slot f) := by
  rw [Grows, map_modify_of_kind hf]

theorem grows_modify_const (k : Option ItemKind) (l : List α) (slot : Nat) (f : α → α) :
    Grows (fun _ => k) l (l.modify slot f) := grows_modify (f := f) (fun _ => rfl) l slot

/-- What was found at a place is still found there. -/
theorem Grows.bind_getElem? {l l' : List α} (h : Grows kind l l') {slot : Nat} {k : ItemKind}
    (hk : l[slot]?.bind kind = some k) : l'[slot]?.bind kind = some k := by
  obtain ⟨a, ha, hkind⟩ := Option.bind_eq_some_iff.1 hk
  have hmap : (l.map kind)[slot]? = some (some k) := by rw [List.getElem?_map, ha, ← hkind]; rfl
  obtain ⟨added, hadded⟩ := h
  have hmap' : (l'.map kind)[slot]? = some (some k) := by
    rw [← hadded, List.getElem?_append_left (List.getElem?_eq_some_iff.1 hmap).1, hmap]
  rw [List.getElem?_map] at hmap'
  obtain ⟨a', ha', hkind'⟩ := Option.map_eq_some_iff.1 hmap'
  rw [ha', Option.bind_some, hkind']

theorem bind_getElem?_concat (l : List α) (a : α) : (l ++ [a])[l.length]?.bind kind = kind a := by
  rw [List.getElem?_append_right (Nat.le_refl _), Nat.sub_self]
  rfl

end

theorem itemKind?_setChildren (nodes : List ViewNode) (node : ViewNode) :
    (node.setChildren nodes).itemKind? = node.itemKind? := by
  cases node <;> rfl

theorem itemKind?_addAlternate (branch : Branch ViewNode) (node : ViewNode) :
    (node.addAlternate branch).itemKind? = node.itemKind? := by
  cases node <;> rfl

theorem itemKind?_setBranches (cases : List (Branch ViewNode)) (fallback : Option (Branch ViewNode))
    (node : ViewNode) : (node.setBranches cases fallback).itemKind? = node.itemKind? := by
  cases node <;> rfl

theorem itemKind?_setBody (items : List LogicItem) (item : LogicItem) :
    (item.setBody items).itemKind? = item.itemKind? := by
  cases item <;> rfl

/-! ## Blocks -/

/-- The block takes lines of logic. -/
def Block.isLogic : Block → Bool
  | .mount | .logic _ _ => true
  | _ => false

/-- The nodes that a block has collected. -/
def Block.nodes : Block → List ViewNode
  | .view _ nodes => nodes
  | _ => []

/-- The items of logic that a block has collected. -/
def Block.items : Block → List LogicItem
  | .logic _ items => items
  | _ => []

/-- The innermost block takes lines of logic. -/
def Scope.InLogic (s : Scope) : Prop := s.top?.any Block.isLogic

instance (s : Scope) : Decidable s.InLogic := inferInstanceAs (Decidable (_ = true))

/-- The kind of the item that stands where a block expects it, if the block is open on top of the
scope `s`. A branch expects the choice that it belongs to right around it. -/
def Block.item? (s : Scope) : Block → Option ItemKind
  | .view (.node slot) _ | .view (.alternate slot _) _ | .choice slot _ _ =>
    if s.InView then s.children[slot]?.bind ViewNode.itemKind? else none
  | .view (.branch _) _ => if s.InChoice then some .choice else none
  | .logic (.function slot) _ => s.manifest.functions[slot]?.bind fun _ => some .function
  | .logic (.watcher slot) _ => s.manifest.watchers[slot]?.bind fun _ => some .watcher
  | .logic (.persona slot) _ => s.manifest.tests[slot]?.bind fun _ => some .persona
  | .logic (.nested slot) _ => if s.InLogic then s.body[slot]?.bind LogicItem.itemKind? else none
  | .rule slot _ => s.manifest.styleRules[slot]?.bind fun _ => some .rule
  | .forest | .mount | .suite _ | .style | .head _ => none

/-- The block can fill in an item of the given kind. Blocks that fill in nothing need none. -/
def Block.fits : Block → Option ItemKind → Bool
  | .view (.node _) _, k => [some .element, some .fragment, some .each, some .cond].contains k
  | .view (.alternate _ _) _, k => k = some .cond
  | .view (.branch _) _, k => k = some .choice
  | .choice _ _ _, k => k = some .choice
  | .logic (.function _) _, k => k = some .function
  | .logic (.watcher _) _, k => k = some .watcher
  | .logic (.persona _) _, k => k = some .persona
  | .logic (.nested _) _, k => k = some .block
  | .rule _ _, k => k = some .rule
  | _, k => k = none

theorem Block.item?_bare (s : Scope) (b : Block) : b.bare.item? s = b.item? s := by
  cases b with
  | view role nodes => cases role <;> rfl
  | logic owner items => cases owner <;> rfl
  | _ => rfl

theorem Block.fits_bare (b : Block) (k : Option ItemKind) : b.bare.fits k = b.fits k := by
  cases b with
  | view role nodes => cases role <;> rfl
  | logic owner items => cases owner <;> rfl
  | _ => rfl

/-- Blocks that fill in nothing look for nothing. -/
theorem Block.item?_of_fits_none {b : Block} (h : b.fits none) (s : Scope) :
    b.item? s = none := by
  cases b with
  | view role nodes => cases role <;> cases h
  | logic owner items => cases owner <;> cases h
  | choice slot cases fallback => cases h
  | rule slot declarations => cases h
  | _ => rfl

theorem Block.holdsNodes_bare (b : Block) : b.bare.holdsNodes = b.holdsNodes := by
  cases b <;> rfl

theorem Block.isChoice_bare (b : Block) : b.bare.isChoice = b.isChoice := by
  cases b <;> rfl

theorem Block.isLogic_bare (b : Block) : b.bare.isLogic = b.isLogic := by
  cases b <;> rfl

/-- The second block is the first with more in it. -/
structure Block.Grows (b b' : Block) : Prop where
  bare : b'.bare = b.bare
  nodes : ComponentLang.Grows ViewNode.itemKind? b.nodes b'.nodes
  items : ComponentLang.Grows LogicItem.itemKind? b.items b'.items

theorem Block.Grows.refl (b : Block) : b.Grows b := ⟨rfl, .refl _, .refl _⟩

theorem Block.Grows.trans {b b' b'' : Block} (h : b.Grows b') (h' : b'.Grows b'') : b.Grows b'' :=
  ⟨h'.bare.trans h.bare, h.nodes.trans h'.nodes, h.items.trans h'.items⟩

/-- All lists of items in the manifest have grown. -/
structure Manifest.Grows (m m' : Manifest) : Prop where
  view : ComponentLang.Grows ViewNode.itemKind? m.view m'.view
  functions : ComponentLang.Grows (fun _ => some .function) m.functions m'.functions
  watchers : ComponentLang.Grows (fun _ => some .watcher) m.watchers m'.watchers
  tests : ComponentLang.Grows (fun _ => some .persona) m.tests m'.tests
  styleRules : ComponentLang.Grows (fun _ => some .rule) m.styleRules m'.styleRules
  lifecycle : ComponentLang.Grows LogicItem.itemKind? m.lifecycle m'.lifecycle

theorem Manifest.Grows.refl (m : Manifest) : m.Grows m :=
  ⟨.refl _, .refl _, .refl _, .refl _, .refl _, .refl _⟩

theorem Manifest.Grows.trans {m m' m'' : Manifest} (h : m.Grows m') (h' : m'.Grows m'') :
    m.Grows m'' :=
  ⟨h.view.trans h'.view, h.functions.trans h'.functions, h.watchers.trans h'.watchers,
    h.tests.trans h'.tests, h.styleRules.trans h'.styleRules, h.lifecycle.trans h'.lifecycle⟩

namespace Scope

/-! ## Scopes -/

/-- All lists of items have grown, and the same blocks are open. -/
structure Grows (s s' : Scope) : Prop where
  manifest : s.manifest.Grows s'.manifest
  frames : List.Forall₂ (fun f f' => f.block.Grows f'.block) s.frames s'.frames

theorem Grows.refl (s : Scope) : s.Grows s :=
  ⟨.refl _, List.forall₂_same.2 fun f _ => .refl f.block⟩

theorem Grows.trans {s s' s'' : Scope} (h : s.Grows s') (h' : s'.Grows s'') : s.Grows s'' := by
  refine ⟨h.manifest.trans h'.manifest, ?_⟩
  have hframes := h.frames
  have hframes' := h'.frames
  generalize s.frames = fs, s'.frames = fs', s''.frames = fs'' at hframes hframes'
  induction hframes generalizing fs'' with
  | nil =>
    cases hframes'
    exact .nil
  | cons hf _ ih =>
    cases hframes' with
    | cons hf' hrest => exact .cons (hf.trans hf') (ih _ hrest)

theorem grows_manifest (s : Scope) {m : Manifest} (h : s.manifest.Grows m) :
    s.Grows { s with manifest := m } :=
  ⟨h, List.forall₂_same.2 fun f _ => .refl f.block⟩

/-- What has grown is still innermost. -/
theorem Grows.top? {s s' : Scope} (h : s.Grows s') :
    s'.top?.map Block.bare = s.top?.map Block.bare := by
  have hframes := h.frames
  unfold Scope.top?
  generalize s.frames = fs, s'.frames = fs' at hframes
  cases hframes with
  | nil => rfl
  | cons hf _ => exact congrArg some hf.bare

theorem Grows.inView {s s' : Scope} (h : s.Grows s') : s'.InView ↔ s.InView := by
  have htop := congrArg (Option.all Block.holdsNodes) h.top?
  simpa [Option.all_map, Function.comp_def, Block.holdsNodes_bare, InView] using htop

theorem Grows.inChoice {s s' : Scope} (h : s.Grows s') : s'.InChoice ↔ s.InChoice := by
  have htop := congrArg (Option.any Block.isChoice) h.top?
  simpa [Option.any_map, Function.comp_def, Block.isChoice_bare, InChoice] using htop

theorem Grows.inLogic {s s' : Scope} (h : s.Grows s') : s'.InLogic ↔ s.InLogic := by
  have htop := congrArg (Option.any Block.isLogic) h.top?
  simpa [Option.any_map, Function.comp_def, Block.isLogic_bare, InLogic] using htop

theorem Grows.children {s s' : Scope} (h : s.Grows s') :
    ComponentLang.Grows ViewNode.itemKind? s.children s'.children := by
  have hframes := h.frames
  have hview := h.manifest.view
  unfold Scope.children
  generalize s.frames = fs, s'.frames = fs' at hframes
  cases hframes with
  | nil => exact hview
  | @cons f f' _ _ hf _ =>
    have hbare := hf.bare
    have hnodes := hf.nodes
    obtain ⟨_, _, b⟩ := f
    obtain ⟨_, _, b'⟩ := f'
    cases b with
    | view role nodes =>
      cases b' with
      | view role' nodes' => exact hnodes
      | _ => cases hbare
    | _ =>
      cases b' with
      | view role nodes => cases hbare
      | _ => exact hview

theorem Grows.body {s s' : Scope} (h : s.Grows s') :
    ComponentLang.Grows LogicItem.itemKind? s.body s'.body := by
  have hframes := h.frames
  have hlifecycle := h.manifest.lifecycle
  unfold Scope.body
  generalize s.frames = fs, s'.frames = fs' at hframes
  cases hframes with
  | nil => exact hlifecycle
  | @cons f f' _ _ hf _ =>
    have hbare := hf.bare
    have hitems := hf.items
    obtain ⟨_, _, b⟩ := f
    obtain ⟨_, _, b'⟩ := f'
    cases b with
    | logic owner items =>
      cases b' with
      | logic owner' items' => exact hitems
      | _ => cases hbare
    | _ =>
      cases b' with
      | logic owner items => cases hbare
      | _ => exact hlifecycle

theorem Grows.nodeAt {s s' : Scope} (h : s.Grows s') {slot : Nat} {k : ItemKind}
    (hk : (if s.InView then s.children[slot]?.bind ViewNode.itemKind? else none) = some k) :
    (if s'.InView then s'.children[slot]?.bind ViewNode.itemKind? else none) = some k := by
  split_ifs at hk with hv
  rw [if_pos (h.inView.2 hv)]
  exact h.children.bind_getElem? hk

theorem Grows.itemAt {s s' : Scope} (h : s.Grows s') {slot : Nat} {k : ItemKind}
    (hk : (if s.InLogic then s.body[slot]?.bind LogicItem.itemKind? else none) = some k) :
    (if s'.InLogic then s'.body[slot]?.bind LogicItem.itemKind? else none) = some k := by
  split_ifs at hk with hl
  rw [if_pos (h.inLogic.2 hl)]
  exact h.body.bind_getElem? hk

/-- An item that a block finds is found when lists have grown. -/
theorem Grows.item?_eq_some {s s' : Scope} (h : s.Grows s') {b : Block} {k : ItemKind}
    (hk : b.item? s = some k) : b.item? s' = some k := by
  cases b with
  | view role nodes =>
    cases role with
    | node slot => exact h.nodeAt hk
    | alternate slot condition => exact h.nodeAt hk
    | branch condition =>
      unfold Block.item? at hk ⊢
      rwa [if_congr h.inChoice rfl rfl]
  | choice slot cases fallback => exact h.nodeAt hk
  | logic owner items =>
    cases owner with
    | function slot => exact h.manifest.functions.bind_getElem? hk
    | watcher slot => exact h.manifest.watchers.bind_getElem? hk
    | persona slot => exact h.manifest.tests.bind_getElem? hk
    | nested slot => exact h.itemAt hk
  | rule slot declarations => exact h.manifest.styleRules.bind_getElem? hk
  | _ => cases hk

/-- A block that finds an item which it can fill in still does when lists have grown. -/
theorem Grows.item? {s s' : Scope} (h : s.Grows s') {b b' : Block} (hb : b.Grows b')
    (hfits : b.fits (b.item? s)) : b'.item? s' = b.item? s ∧ b'.fits (b'.item? s') := by
  have hsame : b.item? s' = b.item? s := by
    cases hk : b.item? s with
    | none =>
      rw [hk] at hfits
      exact Block.item?_of_fits_none hfits s'
    | some k => exact h.item?_eq_some hk
  have hitem : b'.item? s' = b.item? s := by
    rw [← hsame, ← Block.item?_bare s' b', hb.bare, Block.item?_bare]
  refine ⟨hitem, ?_⟩
  rw [hitem, ← Block.fits_bare b', hb.bare, Block.fits_bare, hfits]

/-! ## Changes to the lists -/

theorem grows_mapChildren {f : List ViewNode → List ViewNode}
    (hf : ∀ l, ComponentLang.Grows ViewNode.itemKind? l (f l)) (s : Scope) :
    s.Grows (s.mapChildren f) := by
  rcases s with ⟨m, _ | ⟨⟨depth, line, block⟩, rest⟩⟩
  · exact grows_manifest _ { Manifest.Grows.refl m with view := hf _ }
  · have hrest : List.Forall₂ (fun f f' : Frame => f.block.Grows f'.block) rest rest :=
      List.forall₂_same.2 fun f _ => .refl f.block
    cases block with
    | view role nodes => exact ⟨.refl m, .cons ⟨rfl, hf nodes, .refl _⟩ hrest⟩
    | _ => exact grows_manifest _ { Manifest.Grows.refl m with view := hf _ }

theorem grows_mapBody {f : List LogicItem → List LogicItem}
    (hf : ∀ l, ComponentLang.Grows LogicItem.itemKind? l (f l)) (s : Scope) :
    s.Grows (s.mapBody f) := by
  rcases s with ⟨m, _ | ⟨⟨depth, line, block⟩, rest⟩⟩
  · exact grows_manifest _ { Manifest.Grows.refl m with lifecycle := hf _ }
  · have hrest : List.Forall₂ (fun f f' : Frame => f.block.Grows f'.block) rest rest :=
      List.forall₂_same.2 fun f _ => .refl f.block
    cases block with
    | logic owner items => exact ⟨.refl m, .cons ⟨rfl, .refl _, hf items⟩ hrest⟩
    | _ => exact grows_manifest _ { Manifest.Grows.refl m with lifecycle := hf _ }

theorem grows_addBranch (branch : Branch ViewNode) (s : Scope) : s.Grows (s.addBranch branch) := by
  rcases s with ⟨m, _ | ⟨⟨depth, line, block⟩, rest⟩⟩
  · exact .refl _
  · cases block with
    | choice slot cases fallback =>
      unfold addBranch
      refine ⟨.refl m, .cons ?_ (List.forall₂_same.2 fun f _ => .refl f.block)⟩
      dsimp only
      split_ifs <;> exact ⟨rfl, .refl _, .refl _⟩
    | _ => exact .refl _

theorem grows_publishBody (owner : LogicOwner) (items : List LogicItem) (s : Scope) :
    s.Grows (s.publishBody owner items) := by
  have hm := Manifest.Grows.refl s.manifest
  cases owner with
  | function slot => exact grows_manifest _ { hm with functions := grows_modify_const _ _ _ _ }
  | watcher slot => exact grows_manifest _ { hm with watchers := grows_modify_const _ _ _ _ }
  | persona slot => exact grows_manifest _ { hm with tests := grows_modify_const _ _ _ _ }
  | nested slot =>
    exact grows_mapBody (fun l => grows_modify (itemKind?_setBody items) l slot) s

/-- A block that closes fills in its item, and this stays of its kind. -/
theorem grows_publish (frame : Frame) (s : Scope) : s.Grows (publish frame s) := by
  obtain ⟨depth, line, block⟩ := frame
  cases block with
  | view role nodes =>
    cases role with
    | node slot =>
      exact grows_mapChildren (fun l => grows_modify (itemKind?_setChildren nodes) l slot) s
    | alternate slot condition =>
      exact grows_mapChildren (fun l => grows_modify (itemKind?_addAlternate _) l slot) s
    | branch condition => exact grows_addBranch _ s
  | choice slot cases fallback =>
    exact grows_mapChildren (fun l => grows_modify (itemKind?_setBranches cases fallback) l slot) s
  | logic owner items => exact grows_publishBody owner items s
  | rule slot declarations =>
    exact grows_manifest _ { Manifest.Grows.refl s.manifest with
      styleRules := grows_modify_const _ _ _ _ }
  | head lines => exact grows_manifest _ { Manifest.Grows.refl s.manifest with }
  | _ => exact .refl s

theorem grows_closeTop {s : Scope} {f : Frame} {rest : List Frame} (h : s.frames = f :: rest) :
    Grows { s with frames := rest } s.closeTop := by
  unfold closeTop
  rw [h]
  exact grows_publish f _

/-! ## Lines -/

/-- The lists have grown, and then the token may have opened a block. It finds an item that it can
fill in. -/
def Opens (t : Token) (s s' : Scope) : Prop :=
  s.Grows s' ∨ ∃ s₀ block, s.Grows s₀ ∧ s' = s₀.push t block ∧ block.fits (block.item? s₀)

theorem Opens.push {t : Token} {s s₀ : Scope} {block : Block} (h : s.Grows s₀)
    (hb : block.fits (block.item? s₀)) : Opens t s (s₀.push t block) :=
  Or.inr ⟨s₀, block, h, rfl, hb⟩

theorem grows_appendItem (item : LogicItem) (s : Scope) : s.Grows (s.appendItem item) :=
  grows_mapBody (fun l => grows_append l [item]) s

theorem grows_appendNode (node : ViewNode) (s : Scope) : s.Grows (s.append node) :=
  grows_mapChildren (fun l => grows_append l [node]) s

theorem body_appendItem (item : LogicItem) (s : Scope) :
    (s.appendItem item).body = s.body ++ [item] := by
  rcases s with ⟨m, _ | ⟨⟨depth, line, block⟩, rest⟩⟩
  · rfl
  · cases block <;> rfl

theorem logicLine_opens {s : Scope} (hl : s.InLogic) (t : Token) : Opens t s (s.logicLine t) := by
  unfold logicLine
  split_ifs
  · have hg := grows_appendItem (.block t.text [] t.line) s
    refine .push hg ?_
    rw [Block.item?, if_pos (hg.inLogic.2 hl), body_appendItem, bind_getElem?_concat]
    rfl
  · exact Or.inl (grows_appendItem _ s)
  · exact Or.inl (grows_appendItem _ s)

theorem headLine_opens (s : Scope) (t : Token) : Opens t s (s.headLine t) := by
  rcases s with ⟨m, _ | ⟨⟨depth, line, block⟩, rest⟩⟩
  · exact Or.inl (.refl _)
  · cases block with
    | head lines =>
      exact Or.inl ⟨.refl m, .cons ⟨rfl, .refl _, .refl _⟩
        (List.forall₂_same.2 fun f _ => .refl f.block)⟩
    | _ => exact Or.inl (.refl _)

theorem styleLine_opens {s s' : Scope} {t : Token} (h : s.styleLine t = .ok s') : Opens t s s' := by
  unfold styleLine at h
  split_ifs at h
  · cases h
    refine .push (grows_manifest s { Manifest.Grows.refl s.manifest with
      styleRules := grows_append _ _ }) ?_
    rw [Block.item?, bind_getElem?_concat]
    rfl
  · rcases s with ⟨m, _ | ⟨⟨depth, line, block⟩, rest⟩⟩
    · cases h
    · cases block with
      | rule slot declarations =>
        cases h
        exact Or.inl ⟨.refl m, .cons ⟨rfl, .refl _, .refl _⟩
          (List.forall₂_same.2 fun f _ => .refl f.block)⟩
      | _ => cases h

/-! ### Lines of the view -/

/-- A node that is followed by a block of its own stands where the block expects it. -/
theorem openNode_opens {s s₀ : Scope} (hg : s.Grows s₀) (hv : s.InView) (t : Token)
    {node : ViewNode} (hk : (Block.view (.node 0) []).fits node.itemKind?) (nodes : List ViewNode) :
    Opens t s (s₀.openNode t node nodes) := by
  have hg' := hg.trans (grows_appendNode (node.setChildren nodes) s₀)
  refine .push hg' ?_
  rw [Block.item?, if_pos (hg'.inView.2 hv), append, children_mapChildren, bind_getElem?_concat,
    itemKind?_setChildren]
  exact hk

theorem controlLine_opens {s s' : Scope} (hv : s.InView) {t : Token}
    (h : s.controlLine t = .ok s') : Opens t s s' := by
  unfold controlLine at h
  split at h
  · cases h
    exact openNode_opens (.refl s) hv t rfl _
  · cases h
    exact openNode_opens (.refl s) hv t rfl _
  · next subject _ =>
    cases h
    have hg := grows_appendNode (.choice subject [] none t.line) s
    refine .push hg ?_
    rw [Block.item?, if_pos (hg.inView.2 hv), append, children_mapChildren, bind_getElem?_concat]
    rfl
  · unfold openAlternate at h
    split_ifs at h with hlast
    cases h
    refine .push (.refl s) ?_
    rw [Block.item?, if_pos hv, ← List.getLast?_eq_getElem?]
    cases hnode : s.children.getLast? with
    | none => simp [hnode] at hlast
    | some node =>
      cases node with
      | cond chain => rfl
      | _ => simp [hnode, ViewNode.isCond] at hlast
  · cases h

theorem markupLine_opens {s : Scope} (hv : s.InView) (t : Token) : Opens t s (s.markupLine t) := by
  unfold markupLine
  split
  · next name _ _ =>
    have hg := grows_manifest s (m := (s.registerSlot name).manifest)
      { Manifest.Grows.refl s.manifest with }
    exact Or.inl (hg.trans (grows_appendNode _ _))
  · next e _ =>
    have hg : s.Grows ((e.ref.map s.registerRef).getD s) := by
      cases e.ref with
      | none => exact .refl s
      | some ref => exact grows_manifest s { Manifest.Grows.refl s.manifest with }
    dsimp only
    split_ifs
    · refine openNode_opens hg hv t ?_ []
      unfold elementNode
      split_ifs <;> rfl
    · exact Or.inl (hg.trans (grows_appendNode _ _))

theorem nodeLine_opens {s s' : Scope} (hv : s.InView) {t : Token} (h : s.nodeLine t = .ok s') :
    Opens t s s' := by
  unfold nodeLine at h
  split_ifs at h
  · exact controlLine_opens hv h
  · cases h
    exact markupLine_opens hv t
  · cases h
    exact Or.inl (grows_appendNode _ s)

theorem branchLine_opens {s s' : Scope} (hc : s.InChoice) {t : Token}
    (h : s.branchLine t = .ok s') : Opens t s s' := by
  rw [branchLine_eq] at h
  split at h
  · cases h
    refine .push (.refl s) ?_
    rw [Block.item?, if_pos hc]
    rfl
  · cases h

/-! ### Any line -/

theorem declare_opens {s s' : Scope} {t : Token} (h : s.declare t = .ok s') : Opens t s s' := by
  have hgrows : ∀ {m' : Manifest}, s.manifest.declare? t = some m' → s.manifest.Grows m' := by
    intro m' hm
    unfold Manifest.declare? at hm
    split at hm
    iterate 6
      · obtain ⟨_, _, rfl⟩ := Option.map_eq_some_iff.1 hm
        exact { Manifest.Grows.refl s.manifest with }
    · cases hm
  unfold declare at h
  split at h
  · next hm =>
    cases h
    exact Or.inl (grows_manifest s (hgrows hm))
  · cases h

theorem place_opens {s s' : Scope} {t : Token} (hlogic : ¬ s.InLogic)
    (hhead : ∀ lines, s.top? ≠ some (.head lines)) (h : s.place t = .ok s') : Opens t s s' := by
  unfold place at h
  split at h
  · exact styleLine_opens h
  · exact styleLine_opens h
  · next htop => exact branchLine_opens (by simp [InChoice, htop, Block.isChoice]) h
  · cases h
  · refine nodeLine_opens ?_ h
    -- of all blocks, those that hold nodes are left
    unfold InLogic at hlogic
    unfold InView
    cases htop : s.top? with
    | none => rfl
    | some block => cases block <;> simp_all [Block.holdsNodes, Block.isLogic]

theorem route_opens {s s' : Scope} {t : Token} (hlogic : ¬ s.InLogic)
    (hhead : ∀ lines, s.top? ≠ some (.head lines)) (h : s.route t = .ok s') : Opens t s s' := by
  have hm := Manifest.Grows.refl s.manifest
  unfold route at h
  split at h
  iterate 6 exact declare_opens h
  · unfold openFunction at h
    split at h
    · cases h
    · cases h
      refine .push (grows_manifest s { hm with functions := grows_append _ _ }) ?_
      rw [Block.item?, bind_getElem?_concat]
      rfl
  · cases h
    exact .push (grows_manifest s { hm with lifecycle := grows_append _ _ }) rfl
  · unfold openWatcher at h
    split at h
    · cases h
    · cases h
      refine .push (grows_manifest s { hm with watchers := grows_append _ _ }) ?_
      rw [Block.item?, bind_getElem?_concat]
      rfl
  · cases h
    exact .push (.refl s) rfl
  · cases h
    exact .push (.refl s) rfl
  · cases h
    exact .push (.refl s) rfl
  · unfold openPersona at h
    split at h
    · cases h
    · cases h
      refine .push (grows_manifest s { hm with tests := grows_append _ _ }) ?_
      rw [Block.item?, bind_getElem?_concat]
      rfl
  · cases h
    exact .push (.refl s) rfl
  all_goals exact place_opens hlogic hhead h

/-- A line that finds a place lets lists grow, and opens one block at most, over an item that this
block can fill in. -/
theorem dispatch_opens {s s' : Scope} {t : Token} (h : s.dispatch t = .ok s') : Opens t s s' := by
  unfold dispatch at h
  split at h
  · next htop =>
    cases h
    exact logicLine_opens (by simp [InLogic, htop, Block.isLogic]) t
  · next htop =>
    cases h
    exact logicLine_opens (by simp [InLogic, htop, Block.isLogic]) t
  · cases h
    exact headLine_opens s t
  · next hmount hlogic hhead =>
    refine route_opens ?_ hhead h
    unfold InLogic
    cases htop : s.top? with
    | none => simp
    | some block => cases block <;> simp_all [Block.isLogic]

end Scope

end ComponentLang
