import ComponentLang.Proofs.View.Placeholder
import ComponentLang.View.Walk

/-!
# What every node of a view satisfies

* `EveryNode q` : all nodes of a forest satisfy `q`, wherever they stand;
* `IgnoresFilling q` : it does not matter to `q` what a node is filled with;
* `EveryNode.setChildren`, `setBranches`, `addAlternate`, `modify` : filling in a node keeps that all
  nodes satisfy such a `q`, if those filled in do;
* `ViewLine.Brings q` : all nodes that a line brings satisfy `q`, told by its kind in `brings_read`;
* `Scope.EveryNode q` : the same of the forest and of all that the open blocks have gathered;
* `EveryNode.closeTop`, `EveryNode.dispatch` : how this is kept when a block closes, and by every
  line.
-/

namespace ComponentLang

/-! ## Nodes of a forest -/

/-- All nodes of a forest satisfy `q`. -/
def EveryNode (q : ViewNode → Prop) (nodes : List ViewNode) : Prop := ∀ node ∈ walkAll nodes, q node

/-- It does not matter to `q` what a node is filled with. -/
structure IgnoresFilling (q : ViewNode → Prop) : Prop where
  setChildren : ∀ node children, q node → q (node.setChildren children)
  setBranches : ∀ node cases fallback, q node → q (node.setBranches cases fallback)

section

variable {q : ViewNode → Prop}

theorem everyNode_nil : EveryNode q [] := fun node h => by cases h

theorem everyNode_iff {nodes : List ViewNode} :
    EveryNode q nodes ↔ ∀ node ∈ nodes, EveryNode q [node] := by
  simp only [EveryNode, walkAll_eq, List.mem_flatMap, List.mem_singleton]
  constructor
  · rintro h node hnode inner ⟨_, rfl, hinner⟩
    exact h inner ⟨_, hnode, hinner⟩
  · rintro h inner ⟨node, hnode, hinner⟩
    exact h node hnode inner ⟨node, rfl, hinner⟩

theorem everyNode_append {nodes nodes' : List ViewNode} :
    EveryNode q (nodes ++ nodes') ↔ EveryNode q nodes ∧ EveryNode q nodes' := by
  rw [everyNode_iff, List.forall_mem_append, ← everyNode_iff, ← everyNode_iff]

/-- A node, and what its bodies hold. -/
theorem everyNode_singleton {node : ViewNode} :
    EveryNode q [node] ↔ q node ∧ ∀ body ∈ node.childLists, EveryNode q body := by
  simp only [EveryNode, walkAll_eq [node], List.flatMap_singleton, walk_eq, List.forall_mem_cons,
    List.mem_flatMap, forall_exists_index, and_imp]
  exact and_congr_right fun _ => ⟨fun h body hbody inner hinner => h inner body hbody hinner,
    fun h inner body hbody hinner => h body hbody inner hinner⟩

theorem EveryNode.modify {nodes : List ViewNode} (h : EveryNode q nodes) {slot : Nat}
    {f : ViewNode → ViewNode}
    (hf : ∀ node, nodes[slot]? = some node → EveryNode q [node] → EveryNode q [f node]) :
    EveryNode q (nodes.modify slot f) := by
  rw [everyNode_iff] at h ⊢
  intro node' hnode'
  obtain ⟨i, hi⟩ := List.mem_iff_getElem?.1 hnode'
  rw [List.getElem?_modify] at hi
  obtain ⟨node, hnode, rfl⟩ := Option.map_eq_some_iff.1 hi
  have hold := h node (List.mem_of_getElem? hnode)
  split_ifs with hslot
  · exact hf node (hslot ▸ hnode) hold
  · exact hold

theorem EveryNode.setChildren (hq : IgnoresFilling q) {node : ViewNode} (h : EveryNode q [node])
    {children : List ViewNode} (hchildren : EveryNode q children) :
    EveryNode q [node.setChildren children] := by
  rw [everyNode_singleton] at h ⊢
  obtain ⟨hnode, hbodies⟩ := h
  refine ⟨hq.setChildren node children hnode, ?_⟩
  cases node with
  | cond chain =>
    -- only the body of the first branch is another one
    intro body hbody
    cases chain with
    | last b =>
      rw [List.mem_singleton.1 hbody]
      exact hchildren
    | link b rest =>
      rcases List.mem_cons.1 hbody with rfl | hbody
      · exact hchildren
      · exact hbodies body (List.mem_cons_of_mem _ hbody)
  | element tag attributes ref old l => exact List.forall_mem_singleton.2 hchildren
  | fragment old l => exact List.forall_mem_singleton.2 hchildren
  | each list item old l => exact List.forall_mem_singleton.2 hchildren
  | _ => exact hbodies

theorem EveryNode.setBranches (hq : IgnoresFilling q) {node : ViewNode} (h : EveryNode q [node])
    {cases : List (Branch ViewNode)} {fallback : Option (Branch ViewNode)}
    (hbranches : ∀ body ∈ (cases ++ fallback.toList).map Branch.children, EveryNode q body) :
    EveryNode q [node.setBranches cases fallback] := by
  rw [everyNode_singleton] at h ⊢
  refine ⟨hq.setBranches node cases fallback h.1, ?_⟩
  cases node with
  | choice subject _ _ l => exact hbranches
  | _ => exact h.2

theorem EveryNode.addAlternate {node : ViewNode} (h : EveryNode q [node]) {branch : Branch ViewNode}
    (hbranch : EveryNode q branch.children) (hlink : q node → q (node.addAlternate branch)) :
    EveryNode q [node.addAlternate branch] := by
  rw [everyNode_singleton] at h ⊢
  refine ⟨hlink h.1, ?_⟩
  cases node with
  | cond chain =>
    intro body hbody
    simp only [ViewNode.addAlternate, ViewNode.childLists, Chain.branches_withAlternate,
      List.map_append, List.mem_append] at hbody
    rcases hbody with hbody | hbody
    · exact h.2 body hbody
    · rw [List.mem_singleton.1 hbody]
      exact hbranch
  | _ => exact h.2

/-! ## The nodes of a line -/

/-- The property of a line that all nodes which it brings satisfy `q`. -/
def ViewLine.Brings (q : ViewNode → Prop) (line : Int) : ViewLine → Prop
  | .leaf node => EveryNode q [node]
  | .header node nodes => EveryNode q [node.setChildren nodes] ∧ EveryNode q nodes
  | .choice subject => q (.choice subject [] none line)
  | .alternate _ nodes => EveryNode q nodes
  | .stray => True

theorem everyNode_inlineNodes (htext : ∀ content mode l, q (.text content mode l))
    (inline : Option Text) (l : Int) : EveryNode q (inlineNodes inline l) := by
  cases inline with
  | none => exact everyNode_nil
  | some t => exact everyNode_singleton.2 ⟨htext _ _ _, by rintro _ ⟨⟩⟩

/-- Texts, and the nodes of control flow and markup as they are read, are all that a line brings. -/
theorem brings_read (hq : IgnoresFilling q) (htext : ∀ content mode l, q (.text content mode l))
    (heach : ∀ list item l, q (.each list item [] l))
    (hcond : ∀ (condition : Text) l, q (.cond (.last ⟨some condition, [], l⟩)))
    (hchoice : ∀ subject l, q (.choice subject [] none l)) {t : Token}
    (hslot : ∀ name inline, t.category ≠ .control → t.category = .element || Scope.isSlotLine t.text →
      Markup.parse t.text = .slot name inline → q (.slot name t.line))
    (helement : ∀ e, t.category ≠ .control → t.category = .element || Scope.isSlotLine t.text →
      Markup.parse t.text = .element e → q (Scope.elementNode e t.line)) :
    (ViewLine.read t).Brings q t.line := by
  have hinline := everyNode_inlineNodes htext
  have hnodes : EveryNode q (headerNodes t) := hinline _ _
  have hempty : ∀ {node : ViewNode}, q node → node.childLists.flatten = [] → EveryNode q [node] := by
    intro node hnode hnone
    refine everyNode_singleton.2 ⟨hnode, fun body hbody => ?_⟩
    rw [List.flatten_eq_nil_iff.1 hnone body hbody]
    exact everyNode_nil
  unfold ViewLine.read
  split_ifs with hcontrol hmarkup
  · unfold ViewLine.readControl
    cases ViewHeader.parse? (splitInline t.text).1 with
    | none => trivial
    | some header =>
      cases header with
      | each list item => exact ⟨(hempty (heach list item _) rfl).setChildren hq hnodes, hnodes⟩
      | cond condition => exact ⟨(hempty (hcond condition _) rfl).setChildren hq hnodes, hnodes⟩
      | choice subject => exact hchoice subject _
      | alternate condition => exact hnodes
  · unfold ViewLine.readMarkup
    cases hparse : Markup.parse t.text with
    | slot name inline => exact hempty (hslot name inline hcontrol hmarkup hparse) rfl
    | element e =>
      have hnode : EveryNode q [Scope.elementNode e t.line] := by
        refine hempty (helement e hcontrol hmarkup hparse) ?_
        unfold Scope.elementNode
        split_ifs <;> rfl
      dsimp only
      split_ifs
      · exact ⟨hnode.setChildren hq everyNode_nil, everyNode_nil⟩
      · exact hnode.setChildren hq (hinline _ _)
  · exact hempty (htext _ _ _) rfl
  · trivial

end

/-! ## Nodes in a scope -/

/-- The bodies that a block has gathered. -/
def Block.bodies : Block → List (List ViewNode)
  | .view _ nodes => [nodes]
  | .choice _ cases fallback => (cases ++ fallback.toList).map Branch.children
  | _ => []

theorem Block.bodies_skin (b : Block) : b.skin.bodies = b.bodies := by
  cases b <;> rfl

namespace Scope

/-- All nodes satisfy `q`, in the forest and in the open blocks. -/
structure EveryNode (q : ViewNode → Prop) (s : Scope) : Prop where
  view : ComponentLang.EveryNode q s.manifest.view
  bodies : ∀ f ∈ s.frames, ∀ body ∈ f.block.bodies, ComponentLang.EveryNode q body

/-- The node to which the innermost block will be linked satisfies `q` after that as well. -/
def AllowsLink (q : ViewNode → Prop) (s : Scope) : Prop :=
  ∀ depth line slot condition nodes rest,
    s.frames = ⟨depth, line, .view (.alternate slot condition) nodes⟩ :: rest →
    ∀ node, (sinkOf s.manifest.view rest)[slot]? = some node → q node →
      q (node.addAlternate ⟨condition, nodes, line⟩)

section

variable {q : ViewNode → Prop} {s s' : Scope}

theorem everyNode_start : start.EveryNode q := ⟨everyNode_nil, by rintro f ⟨⟩⟩

theorem EveryNode.sameTree (h : s.EveryNode q) (hs : SameTree s s') : s'.EveryNode q := by
  refine ⟨by rw [hs.2]; exact h.view, fun f hf => ?_⟩
  have hskin : f.skin ∈ s.frames.map Frame.skin := hs.1 ▸ List.mem_map_of_mem hf
  obtain ⟨g, hg, heq⟩ := List.mem_map.1 hskin
  have hbodies : g.block.bodies = f.block.bodies := by
    rw [← Block.bodies_skin, ← Block.bodies_skin f.block]
    exact congrArg (fun f : Frame => f.block.bodies) heq
  rw [← hbodies]
  exact h.bodies g hg

theorem EveryNode.children (h : s.EveryNode q) : ComponentLang.EveryNode q s.children := by
  rcases s with ⟨m, _ | ⟨⟨depth, line, block⟩, rest⟩⟩
  · exact h.view
  · cases block with
    | view role nodes => exact h.bodies _ List.mem_cons_self nodes List.mem_cons_self
    | _ => exact h.view

theorem EveryNode.mapChildren (h : s.EveryNode q) {f : List ViewNode → List ViewNode}
    (hf : ComponentLang.EveryNode q (f s.children)) : (s.mapChildren f).EveryNode q := by
  rcases s with ⟨m, _ | ⟨⟨depth, line, block⟩, rest⟩⟩
  · exact ⟨hf, h.bodies⟩
  · cases block with
    | view role nodes =>
      refine ⟨h.view, List.forall_mem_cons.2 ⟨List.forall_mem_singleton.2 hf, ?_⟩⟩
      exact fun g hg => h.bodies g (List.mem_cons_of_mem _ hg)
    | _ => exact ⟨hf, h.bodies⟩

theorem EveryNode.append (h : s.EveryNode q) {node : ViewNode}
    (hnode : ComponentLang.EveryNode q [node]) : (s.append node).EveryNode q :=
  h.mapChildren (everyNode_append.2 ⟨h.children, hnode⟩)

theorem EveryNode.push (h : s.EveryNode q) (t : Token) {block : Block}
    (hblock : ∀ body ∈ block.bodies, ComponentLang.EveryNode q body) : (s.push t block).EveryNode q :=
  ⟨h.view, List.forall_mem_cons.2 ⟨hblock, h.bodies⟩⟩

theorem EveryNode.addBranch (h : s.EveryNode q) {branch : Branch ViewNode}
    (hbranch : ComponentLang.EveryNode q branch.children) : (s.addBranch branch).EveryNode q := by
  rcases s with ⟨m, _ | ⟨⟨depth, line, block⟩, rest⟩⟩
  · exact h
  · cases block with
    | choice slot cases fallback =>
      have hold : ∀ body ∈ (cases ++ fallback.toList).map Branch.children,
          ComponentLang.EveryNode q body := h.bodies _ List.mem_cons_self
      have hrest : ∀ g ∈ rest, ∀ body ∈ g.block.bodies, ComponentLang.EveryNode q body :=
        fun g hg => h.bodies g (List.mem_cons_of_mem _ hg)
      rw [List.map_append, List.forall_mem_append] at hold
      unfold Scope.addBranch
      dsimp only
      split_ifs
      · refine ⟨h.view, List.forall_mem_cons.2 ⟨?_, hrest⟩⟩
        rw [Block.bodies, List.map_append, List.forall_mem_append]
        exact ⟨hold.1, List.forall_mem_singleton.2 hbranch⟩
      · refine ⟨h.view, List.forall_mem_cons.2 ⟨?_, hrest⟩⟩
        rw [Block.bodies, List.map_append, List.map_append, List.forall_mem_append,
          List.forall_mem_append]
        exact ⟨⟨hold.1, List.forall_mem_singleton.2 hbranch⟩, hold.2⟩
    | _ => exact h

/-- A block that closes leaves its bodies behind. -/
theorem EveryNode.closeTop (hq : IgnoresFilling q) (h : s.EveryNode q) (hlink : s.AllowsLink q) :
    s.closeTop.EveryNode q := by
  rcases s with ⟨m, _ | ⟨⟨depth, line, block⟩, rest⟩⟩
  · exact h
  · have hrest : EveryNode q ⟨m, rest⟩ := ⟨h.view, fun g hg => h.bodies g (List.mem_cons_of_mem _ hg)⟩
    have hbodies : ∀ body ∈ block.bodies, ComponentLang.EveryNode q body :=
      h.bodies _ List.mem_cons_self
    cases block with
    | view role nodes =>
      have hnodes : ComponentLang.EveryNode q nodes := hbodies nodes List.mem_cons_self
      cases role with
      | node slot =>
        exact hrest.mapChildren (hrest.children.modify fun node _ hnode => hnode.setChildren hq hnodes)
      | alternate slot condition =>
        refine hrest.mapChildren (hrest.children.modify fun node hat hnode => ?_)
        refine hnode.addAlternate hnodes (hlink depth line slot condition nodes rest rfl node ?_)
        rw [← hat]
        exact congrArg (·[slot]?) (sinkOf_frames ⟨m, rest⟩)
      | branch condition => exact hrest.addBranch hnodes
    | choice slot cases fallback =>
      exact hrest.mapChildren (hrest.children.modify fun node _ hnode => hnode.setBranches hq hbodies)
    | _ => exact hrest.sameTree (sameTree_publish rfl _)

theorem EveryNode.nodeLine (h : s.EveryNode q) {t : Token}
    (hread : (ViewLine.read t).Brings q t.line) (hline : s.nodeLine t = .ok s') : s'.EveryNode q := by
  obtain ⟨s₀, hs₀, hcases⟩ := nodeLine_ok hline
  have h₀ : s₀.EveryNode q := h.sameTree hs₀.sameTree
  rcases hcases with ⟨node, heq, rfl⟩ | ⟨node, nodes, heq, rfl⟩ | ⟨subject, heq, rfl⟩ |
    ⟨condition, nodes, heq, _, rfl⟩
  · rw [heq] at hread
    exact h₀.append hread
  · rw [heq] at hread
    exact (h₀.append hread.1).push t (List.forall_mem_singleton.2 hread.2)
  · rw [heq] at hread
    have hchoice : ComponentLang.EveryNode q [.choice subject [] none t.line] :=
      everyNode_singleton.2 ⟨hread, by rintro _ ⟨⟩⟩
    exact (h₀.append hchoice).push t (by rintro _ ⟨⟩)
  · rw [heq] at hread
    exact h₀.push t (List.forall_mem_singleton.2 hread)

/-- What a line brings among nodes has to satisfy `q`. The branches of a choice bring texts. -/
theorem EveryNode.dispatch (htext : ∀ content mode l, q (.text content mode l)) (h : s.EveryNode q)
    {t : Token} (hread : s.InView → isViewCategory t.category → (ViewLine.read t).Brings q t.line)
    (hline : s.dispatch t = .ok s') : s'.EveryNode q := by
  rcases dispatch_cases hline with ⟨hr, hv, hline⟩ | ⟨_, _, hline⟩ | ⟨_, ha⟩
  · exact h.nodeLine (hread hv hr.2) hline
  · rw [branchLine_eq] at hline
    split at hline
    · cases hline
      exact h.push t (List.forall_mem_singleton.2 (everyNode_inlineNodes htext _ _))
    · cases hline
  · rcases ha with ha | ⟨s₀, block, ha, hb, rfl⟩
    · exact h.sameTree ha
    · refine (h.sameTree ha).push t ?_
      cases block with
      | view role nodes => cases hb
      | choice slot cases fallback => cases hb
      | _ => rintro _ ⟨⟩

end

end Scope

end ComponentLang
