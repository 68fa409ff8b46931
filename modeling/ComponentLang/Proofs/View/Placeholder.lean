import ComponentLang.Proofs.View.Aside
import ComponentLang.Proofs.View.Descent
import ComponentLang.Proofs.View.Entry

/-!
# Placeholders

A node with a block of its own stands in its list from the moment the block opens, and is filled in
at its place when the block closes. Blocks of a view share the forest of the manifest with the root
and with each other, so that many open blocks may have their nodes in one list.

* `ViewNode.Awaits l` : the node has a body, opened on line `l`, in which nothing stands yet;
* `sinkOf` : the list in which the nodes of the next block stand;
* `rootSlots` : the places in the forest that open blocks have;
* `Placed` : a block finds its node, of the right kind, where it expects it;
* `Sound` : all open blocks are placed;
* `Sound.closeTop`, `Sound.dispatch` : they still are when a block closes, and after every line.
-/

namespace ComponentLang

/-- The node has a body of its own, which was opened on line `l` and holds no entry yet. -/
def ViewNode.Awaits (l : Int) : ViewNode → Prop
  | .element _ _ _ children l' => l' = l ∧ entriesAll false (some l) children = []
  | .fragment children l' => l' = l ∧ entriesAll false (some l) children = []
  | .each _ _ children l' => l' = l ∧ entriesAll false (some l) children = []
  | .cond chain =>
    chain.first.line = l ∧ entriesAll false (some l) chain.first.children = []
  | _ => False

/-- One node has come out of another by linking a branch to it, if at all. -/
def ViewNode.Kept (node node' : ViewNode) : Prop :=
  node' = node ∨ ∃ branch, node' = node.addAlternate branch

theorem ViewNode.Awaits.kept {l : Int} {node node' : ViewNode} (h : node.Awaits l)
    (hk : node.Kept node') : node'.Awaits l := by
  rcases hk with rfl | ⟨branch, rfl⟩
  · exact h
  · cases node with
    | cond chain => cases chain <;> exact h
    | _ => exact h

theorem ViewNode.Kept.cond {chain : Chain ViewNode} {node : ViewNode}
    (h : (ViewNode.cond chain).Kept node) : ∃ chain', node = .cond chain' := by
  rcases h with rfl | ⟨branch, rfl⟩
  · exact ⟨chain, rfl⟩
  · exact ⟨_, rfl⟩

theorem ViewNode.Kept.choice {subject : Text} {cases : List (Branch ViewNode)}
    {fallback : Option (Branch ViewNode)} {l : Int} {node : ViewNode}
    (h : (ViewNode.choice subject cases fallback l).Kept node) :
    node = .choice subject cases fallback l := by
  rcases h with rfl | ⟨branch, rfl⟩ <;> rfl

/-! ## Where blocks have their nodes -/

/-- The place that a block remembers. -/
def Block.slot? : Block → Option Nat
  | .view (.node slot) _ | .view (.alternate slot _) _ | .choice slot _ _ => some slot
  | _ => none

/-- The list that a block on top of the given ones puts its node into. -/
def sinkOf (root : List ViewNode) : List Frame → List ViewNode
  | ⟨_, _, .view _ nodes⟩ :: _ => nodes
  | _ => root

/-- A block on top of the given ones puts its node into the forest. -/
def sharesRoot : List Frame → Bool
  | ⟨_, _, .view _ _⟩ :: _ => false
  | _ => true

/-- A block on top of the given ones may hold nodes. -/
def takesNodes : List Frame → Bool
  | [] => true
  | f :: _ => f.block.holdsNodes

/-- The places in the forest that open blocks remember. -/
def rootSlots : List Frame → List Nat
  | [] => []
  | f :: rest => (if sharesRoot rest then f.block.slot?.toList else []) ++ rootSlots rest

/-- No block further out has its node at this place, or beyond it in the forest. -/
def Fresh (slot : Nat) (rest : List Frame) : Prop := sharesRoot rest → ∀ k ∈ rootSlots rest, k < slot

/-- The block finds its node where it expects it, and of the kind that it expects. -/
def Placed (root : List ViewNode) (f : Frame) (rest : List Frame) : Prop :=
  match f.block with
  | .view (.node slot) _ =>
    takesNodes rest ∧ (∃ node, (sinkOf root rest)[slot]? = some node ∧ node.Awaits f.line) ∧
      Fresh slot rest
  | .view (.alternate slot _) _ =>
    takesNodes rest ∧ ∃ chain, (sinkOf root rest)[slot]? = some (.cond chain)
  | .view (.branch _) _ => rest.head?.any (·.block.isChoice)
  | .choice slot _ _ =>
    takesNodes rest ∧
      (∃ subject, (sinkOf root rest)[slot]? = some (.choice subject [] none f.line)) ∧
      Fresh slot rest
  | _ => True

/-- All blocks find their nodes. -/
def SoundFrames (root : List ViewNode) : List Frame → Prop
  | [] => True
  | f :: rest => Placed root f rest ∧ SoundFrames root rest

/-- All open blocks of the scope find their nodes. -/
def Scope.Sound (s : Scope) : Prop := SoundFrames s.manifest.view s.frames

theorem sinkOf_frames (s : Scope) : sinkOf s.manifest.view s.frames = s.children := by
  rcases s with ⟨m, _ | ⟨⟨depth, line, block⟩, rest⟩⟩
  · rfl
  · cases block <;> rfl

theorem takesNodes_frames (s : Scope) : takesNodes s.frames ↔ s.InView := by
  rcases s with ⟨m, _ | ⟨⟨depth, line, block⟩, rest⟩⟩
  · exact iff_of_true rfl rfl
  · cases block <;> exact Iff.rfl

/-! ### Only the view counts -/

theorem sinkOf_skin (root : List ViewNode) (frames : List Frame) :
    sinkOf root (frames.map Frame.skin) = sinkOf root frames := by
  rcases frames with _ | ⟨⟨depth, line, block⟩, rest⟩
  · rfl
  · cases block <;> rfl

theorem sharesRoot_skin (frames : List Frame) :
    sharesRoot (frames.map Frame.skin) = sharesRoot frames := by
  rcases frames with _ | ⟨⟨depth, line, block⟩, rest⟩
  · rfl
  · cases block <;> rfl

theorem takesNodes_skin (frames : List Frame) :
    takesNodes (frames.map Frame.skin) = takesNodes frames := by
  rcases frames with _ | ⟨⟨depth, line, block⟩, rest⟩
  · rfl
  · cases block <;> rfl

theorem rootSlots_skin (frames : List Frame) :
    rootSlots (frames.map Frame.skin) = rootSlots frames := by
  induction frames with
  | nil => rfl
  | cons f rest ih =>
    have hslot : f.skin.block.slot? = f.block.slot? := by
      obtain ⟨depth, line, block⟩ := f
      cases block <;> rfl
    rw [List.map_cons, rootSlots, rootSlots, ih, sharesRoot_skin, hslot]

theorem placed_skin (root : List ViewNode) (f : Frame) (rest : List Frame) :
    Placed root f.skin (rest.map Frame.skin) ↔ Placed root f rest := by
  have hfresh : ∀ slot, Fresh slot (rest.map Frame.skin) = Fresh slot rest := fun slot => by
    rw [Fresh, Fresh, sharesRoot_skin, rootSlots_skin]
  have hchoice : (rest.map Frame.skin).head?.any (·.block.isChoice) =
      rest.head?.any (·.block.isChoice) := by
    rcases rest with _ | ⟨⟨depth, line, block⟩, rest⟩
    · rfl
    · cases block <;> rfl
  obtain ⟨depth, line, block⟩ := f
  cases block with
  | view role nodes =>
    cases role <;>
      simp only [Placed, Frame.skin, Block.skin, sinkOf_skin, takesNodes_skin, hfresh, hchoice]
  | choice slot cases fallback =>
    simp only [Placed, Frame.skin, Block.skin, sinkOf_skin, takesNodes_skin, hfresh]
  | _ => exact Iff.rfl

theorem soundFrames_skin (root : List ViewNode) (frames : List Frame) :
    SoundFrames root (frames.map Frame.skin) ↔ SoundFrames root frames := by
  induction frames with
  | nil => exact Iff.rfl
  | cons f rest ih => rw [List.map_cons, SoundFrames, SoundFrames, placed_skin, ih]

theorem Scope.SameTree.sound {s s' : Scope} (h : Scope.SameTree s s') (hs : s.Sound) : s'.Sound := by
  unfold Scope.Sound at hs ⊢
  rwa [h.2, ← soundFrames_skin, h.1, soundFrames_skin]

/-! ## Changes to the forest -/

theorem sinkOf_of_sharesRoot {root : List ViewNode} {frames : List Frame} (h : sharesRoot frames) :
    sinkOf root frames = root := by
  rcases frames with _ | ⟨⟨depth, line, block⟩, rest⟩
  · rfl
  · cases block with
    | view role nodes => cases h
    | _ => rfl

theorem sinkOf_of_not_sharesRoot {frames : List Frame} (h : ¬ sharesRoot frames)
    (root root' : List ViewNode) : sinkOf root frames = sinkOf root' frames := by
  rcases frames with _ | ⟨⟨depth, line, block⟩, rest⟩
  · exact absurd rfl h
  · cases block with
    | view role nodes => rfl
    | _ => exact absurd rfl h

theorem Placed.slot_lt {root : List ViewNode} {f : Frame} {rest : List Frame}
    (h : Placed root f rest) {k : Nat} (hk : f.block.slot? = some k) :
    k < (sinkOf root rest).length := by
  have hlt : ∀ {node : ViewNode}, (sinkOf root rest)[k]? = some node →
      k < (sinkOf root rest).length := fun h => (List.getElem?_eq_some_iff.1 h).1
  obtain ⟨depth, line, block⟩ := f
  cases block with
  | view role nodes =>
    cases role with
    | node slot =>
      cases hk
      obtain ⟨_, ⟨node, hnode, _⟩, _⟩ := h
      exact hlt hnode
    | alternate slot condition =>
      cases hk
      obtain ⟨_, chain, hnode⟩ := h
      exact hlt hnode
    | branch condition => cases hk
  | choice slot cases fallback =>
    cases hk
    obtain ⟨_, ⟨subject, hnode⟩, _⟩ := h
    exact hlt hnode
  | _ => cases hk

theorem mem_rootSlots_cons {k : Nat} {f : Frame} {rest : List Frame} :
    k ∈ rootSlots (f :: rest) ↔
      (sharesRoot rest ∧ f.block.slot? = some k) ∨ k ∈ rootSlots rest := by
  rw [rootSlots, List.mem_append]
  split_ifs with h
  · simp [h]
  · simp [h]

theorem SoundFrames.slot_lt {root : List ViewNode} {frames : List Frame}
    (h : SoundFrames root frames) {k : Nat} (hk : k ∈ rootSlots frames) : k < root.length := by
  induction frames with
  | nil => cases hk
  | cons f rest ih =>
    rcases mem_rootSlots_cons.1 hk with ⟨hroot, hslot⟩ | hk
    · have := h.1.slot_lt hslot
      rwa [sinkOf_of_sharesRoot hroot] at this
    · exact ih h.2 hk

/-- At the places that open blocks remember, the nodes are kept. -/
def KeepsSlots (slots : List Nat) (nodes nodes' : List ViewNode) : Prop :=
  ∀ k ∈ slots, ∀ node, nodes[k]? = some node → ∃ node', nodes'[k]? = some node' ∧ node.Kept node'

theorem Placed.keeps {root root' : List ViewNode} {f : Frame} {rest : List Frame}
    (h : Placed root f rest) (hk : KeepsSlots (rootSlots (f :: rest)) root root') :
    Placed root' f rest := by
  -- where the block has its node in the forest, this node is kept; elsewhere nothing changes
  have hsink : ∀ k node, f.block.slot? = some k → (sinkOf root rest)[k]? = some node →
      ∃ node', (sinkOf root' rest)[k]? = some node' ∧ node.Kept node' := by
    intro k node hslot hnode
    by_cases hroot : sharesRoot rest
    · rw [sinkOf_of_sharesRoot hroot] at hnode ⊢
      exact hk k (mem_rootSlots_cons.2 (Or.inl ⟨hroot, hslot⟩)) node hnode
    · rw [sinkOf_of_not_sharesRoot hroot root' root]
      exact ⟨node, hnode, Or.inl rfl⟩
  obtain ⟨depth, line, block⟩ := f
  cases block with
  | view role nodes =>
    cases role with
    | node slot =>
      obtain ⟨htakes, ⟨node, hnode, hawaits⟩, hfresh⟩ := h
      obtain ⟨node', hnode', hkept⟩ := hsink slot node rfl hnode
      exact ⟨htakes, ⟨node', hnode', hawaits.kept hkept⟩, hfresh⟩
    | alternate slot condition =>
      obtain ⟨htakes, chain, hnode⟩ := h
      obtain ⟨node', hnode', hkept⟩ := hsink slot _ rfl hnode
      obtain ⟨chain', rfl⟩ := hkept.cond
      exact ⟨htakes, chain', hnode'⟩
    | branch condition => exact h
  | choice slot cases fallback =>
    obtain ⟨htakes, ⟨subject, hnode⟩, hfresh⟩ := h
    obtain ⟨node', hnode', hkept⟩ := hsink slot _ rfl hnode
    rw [hkept.choice] at hnode'
    exact ⟨htakes, ⟨subject, hnode'⟩, hfresh⟩
  | _ => exact h

theorem SoundFrames.keeps {root root' : List ViewNode} {frames : List Frame}
    (h : SoundFrames root frames) (hk : KeepsSlots (rootSlots frames) root root') :
    SoundFrames root' frames := by
  induction frames with
  | nil => trivial
  | cons f rest ih =>
    exact ⟨h.1.keeps hk, ih h.2 fun k hmem => hk k (mem_rootSlots_cons.2 (Or.inr hmem))⟩

theorem keepsSlots_append {slots : List Nat} (nodes : List ViewNode) (node : ViewNode) :
    KeepsSlots slots nodes (nodes ++ [node]) := by
  intro k _ old hold
  refine ⟨old, ?_, Or.inl rfl⟩
  rw [List.getElem?_append_left (List.getElem?_eq_some_iff.1 hold).1, hold]

theorem keepsSlots_modify {slots : List Nat} {slot : Nat} (h : ∀ k ∈ slots, k < slot)
    (nodes : List ViewNode) (f : ViewNode → ViewNode) :
    KeepsSlots slots nodes (nodes.modify slot f) := by
  intro k hk old hold
  refine ⟨old, ?_, Or.inl rfl⟩
  have hne : slot ≠ k := by
    have := h k hk
    omega
  rw [List.getElem?_modify, hold]
  simp [hne]

theorem keepsSlots_addAlternate {slots : List Nat} (slot : Nat) (nodes : List ViewNode)
    (branch : Branch ViewNode) :
    KeepsSlots slots nodes (nodes.modify slot (ViewNode.addAlternate branch)) := by
  intro k _ old hold
  rw [List.getElem?_modify, hold]
  by_cases hk : slot = k
  · exact ⟨_, by simp [hk], Or.inr ⟨branch, rfl⟩⟩
  · exact ⟨old, by simp [hk], Or.inl rfl⟩

namespace Scope

/-- Changes to the nodes of the innermost block are harmless, as long as the nodes of the blocks
that share the forest with it are kept. -/
theorem Sound.mapChildren {s : Scope} (h : s.Sound) {f : List ViewNode → List ViewNode}
    (hf : sharesRoot s.frames → KeepsSlots (rootSlots s.frames) s.children (f s.children)) :
    (s.mapChildren f).Sound := by
  by_cases hroot : sharesRoot s.frames
  · have hf := hf hroot
    rcases s with ⟨m, _ | ⟨⟨depth, line, block⟩, rest⟩⟩
    · trivial
    · cases block with
      | view role nodes => cases hroot
      | _ => exact SoundFrames.keeps h hf
  · rcases s with ⟨m, _ | ⟨⟨depth, line, block⟩, rest⟩⟩
    · exact absurd rfl hroot
    · cases block with
      | view role nodes => cases role <;> exact h
      | _ => exact absurd rfl hroot

theorem Sound.append {s : Scope} (h : s.Sound) (node : ViewNode) : (s.append node).Sound :=
  h.mapChildren fun _ => keepsSlots_append _ _

theorem Sound.addBranch {s : Scope} (h : s.Sound) (branch : Branch ViewNode) :
    (s.addBranch branch).Sound := by
  rcases s with ⟨m, _ | ⟨⟨depth, line, block⟩, rest⟩⟩
  · exact h
  · cases block with
    | choice slot cases fallback =>
      unfold Scope.addBranch
      dsimp only
      split_ifs <;> exact h
    | _ => exact h

theorem Sound.push {s : Scope} (h : s.Sound) {t : Token} {block : Block}
    (hp : Placed s.manifest.view ⟨t.depth, t.line, block⟩ s.frames) : (s.push t block).Sound :=
  ⟨hp, h⟩

theorem Sound.closeTop {s : Scope} (h : s.Sound) : s.closeTop.Sound := by
  rcases s with ⟨m, _ | ⟨⟨depth, line, block⟩, rest⟩⟩
  · exact h
  · have hrest : Sound ⟨m, rest⟩ := h.2
    have hp := h.1
    cases block with
    | view role nodes =>
      cases role with
      | node slot =>
        obtain ⟨_, _, hfresh⟩ := hp
        exact hrest.mapChildren fun hroot => keepsSlots_modify (hfresh hroot) _ _
      | alternate slot condition =>
        exact hrest.mapChildren fun _ => keepsSlots_addAlternate _ _ _
      | branch condition => exact hrest.addBranch _
    | choice slot cases fallback =>
      obtain ⟨_, _, hfresh⟩ := hp
      exact hrest.mapChildren fun hroot => keepsSlots_modify (hfresh hroot) _ _
    | _ => exact (sameTree_publish rfl _).sound hrest

theorem Sound.aside {t : Token} {s s' : Scope} (h : s.Sound) (ha : Aside t s s') : s'.Sound := by
  rcases ha with ha | ⟨s₀, block, ha, hb, rfl⟩
  · exact ha.sound h
  · refine (ha.sound h).push ?_
    cases block with
    | view role nodes => cases hb
    | choice slot cases fallback => cases hb
    | _ => trivial

end Scope

/-! ## Lines of a view -/

theorem entriesAll_headerNodes (t : Token) : entriesAll false (some t.line) (headerNodes t) = [] :=
  entriesAll_inlineNodes _ _

theorem setChildren_elementNode (e : Element) (l : Int) (nodes : List ViewNode) :
    (Scope.elementNode e l).setChildren nodes = .fragment nodes l ∨
      ∃ tag attributes ref,
        (Scope.elementNode e l).setChildren nodes = .element tag attributes ref nodes l := by
  unfold Scope.elementNode
  split_ifs
  · exact Or.inl rfl
  · exact Or.inr ⟨_, _, _, rfl⟩

theorem entries_elementNode {e : Element} {l : Int} {nodes : List ViewNode}
    (h : entriesAll false (some l) nodes = []) (holder : Option Int) :
    ((Scope.elementNode e l).setChildren nodes).entries false holder = [.mk l false []] := by
  rcases setChildren_elementNode e l nodes with hn | ⟨tag, attributes, ref, hn⟩ <;>
    rw [hn, ViewNode.entries, h]

/-- The node of a header is an entry, under which nothing stands yet. -/
theorem read_header {t : Token} {node : ViewNode} {nodes : List ViewNode}
    (h : ViewLine.read t = .header node nodes) :
    (node.setChildren nodes).Awaits t.line ∧ entriesAll false (some t.line) nodes = [] ∧
      ∀ holder, (node.setChildren nodes).entries false holder = [.mk t.line false []] := by
  have hinline := entriesAll_headerNodes t
  unfold ViewLine.read at h
  split_ifs at h
  · unfold ViewLine.readControl at h
    split at h
    · cases h
      refine ⟨⟨rfl, hinline⟩, hinline, fun holder => ?_⟩
      rw [ViewNode.setChildren, ViewNode.entries, hinline]
    · cases h
      refine ⟨⟨rfl, hinline⟩, hinline, fun holder => ?_⟩
      rw [ViewNode.setChildren, ViewNode.entries, Chain.mapFirst, chainEntries, Branch.entry, hinline]
    · cases h
    · cases h
    · cases h
  · unfold ViewLine.readMarkup at h
    split at h
    · cases h
    · next e _ =>
      split_ifs at h
      cases h
      refine ⟨?_, rfl, entries_elementNode rfl⟩
      rcases setChildren_elementNode e t.line [] with hn | ⟨tag, attributes, ref, hn⟩ <;> rw [hn] <;>
        exact ⟨rfl, rfl⟩

/-- An alternate holds on its own line at most a text. -/
theorem read_alternate {t : Token} {condition : Option Text} {nodes : List ViewNode}
    (h : ViewLine.read t = .alternate condition nodes) :
    entriesAll false (some t.line) nodes = [] := by
  unfold ViewLine.read at h
  split_ifs at h
  · unfold ViewLine.readControl at h
    split at h <;> cases h
    exact entriesAll_headerNodes t
  · unfold ViewLine.readMarkup at h
    split at h
    · cases h
    · split_ifs at h

/-- The node of a line without a block is an entry. A text has to stand on another line than the
header that it stands under. -/
theorem read_leaf {t : Token} {node : ViewNode} (h : ViewLine.read t = .leaf node)
    {holder : Option Int} (hne : holder ≠ some t.line) :
    node.entries false holder = [.mk t.line false []] := by
  unfold ViewLine.read at h
  split_ifs at h
  · unfold ViewLine.readControl at h
    split at h <;> cases h
  · unfold ViewLine.readMarkup at h
    split at h
    · cases h
      rfl
    · split_ifs at h
      cases h
      exact entries_elementNode (entriesAll_inlineNodes _ _) holder
  · cases h
    simp [ViewNode.entries, hne]

namespace Scope

theorem InView.sameView {s s' : Scope} (h : s.InView) (hv : SameView s s') : s'.InView := by
  unfold InView top? at h ⊢
  rwa [hv.1]

theorem inView_mapChildren {s : Scope} (f : List ViewNode → List ViewNode) :
    (s.mapChildren f).InView ↔ s.InView := by
  rcases s with ⟨m, _ | ⟨⟨depth, line, block⟩, rest⟩⟩
  · exact Iff.rfl
  · cases block <;> exact Iff.rfl

/-- The place at the end of the list is one that no open block has. -/
theorem Sound.fresh_length {s : Scope} (h : s.Sound) (f : List ViewNode → List ViewNode) :
    Fresh s.children.length (s.mapChildren f).frames := by
  intro hroot k hk
  rcases s with ⟨m, _ | ⟨⟨depth, line, block⟩, rest⟩⟩
  · cases hk
  · cases block with
    | view role nodes => cases hroot
    | _ => exact SoundFrames.slot_lt h hk

theorem getElem?_children_append (s : Scope) (node : ViewNode) :
    (s.append node).children[s.children.length]? = some node := by
  rw [append, children_mapChildren, List.getElem?_append_right (Nat.le_refl _), Nat.sub_self]
  rfl

theorem Sound.nodeLine {s s' : Scope} {t : Token} (h : s.Sound) (hv : s.InView)
    (hline : s.nodeLine t = .ok s') : s'.Sound := by
  obtain ⟨s₀, hs₀, hcases⟩ := nodeLine_ok hline
  have h₀ : s₀.Sound := hs₀.sameTree.sound h
  have htakes : ∀ node, takesNodes (s₀.append node).frames := fun node =>
    (takesNodes_frames _).2 ((inView_mapChildren _).2 (hv.sameView hs₀))
  rcases hcases with ⟨node, hread, rfl⟩ | ⟨node, nodes, hread, rfl⟩ | ⟨subject, hread, rfl⟩ |
    ⟨condition, nodes, hread, hlast, rfl⟩
  · exact h₀.append node
  · refine (h₀.append _).push ⟨htakes _, ⟨node.setChildren nodes, ?_, (read_header hread).1⟩,
      h₀.fresh_length _⟩
    rw [sinkOf_frames]
    exact getElem?_children_append s₀ _
  · refine (h₀.append _).push ⟨htakes _, ⟨subject, ?_⟩, h₀.fresh_length _⟩
    rw [sinkOf_frames]
    exact getElem?_children_append s₀ _
  · refine h₀.push ⟨(takesNodes_frames _).2 (hv.sameView hs₀), ?_⟩
    rw [sinkOf_frames, ← List.getLast?_eq_getElem?]
    cases hl : s₀.children.getLast? with
    | none => simp [hl] at hlast
    | some last =>
      cases last with
      | cond chain => exact ⟨chain, rfl⟩
      | _ => simp [hl, ViewNode.isCond] at hlast

theorem Sound.branchLine {s s' : Scope} {t : Token} (h : s.Sound) (hc : s.InChoice)
    (hline : s.branchLine t = .ok s') : s'.Sound := by
  rw [branchLine_eq] at hline
  split at hline
  · cases hline
    refine h.push ?_
    unfold InChoice top? at hc
    cases hf : s.frames with
    | nil => simp [hf] at hc
    | cons f rest => simpa [Placed, hf] using hc
  · cases hline

/-- Open blocks find their nodes after every line. -/
theorem Sound.dispatch {s s' : Scope} {t : Token} (h : s.Sound) (hline : s.dispatch t = .ok s') :
    s'.Sound := by
  rcases dispatch_cases hline with ⟨_, hv, hline⟩ | ⟨_, hc, hline⟩ | ⟨_, ha⟩
  · exact h.nodeLine hv hline
  · exact h.branchLine hc hline
  · exact h.aside ha

end Scope

end ComponentLang
