import ComponentLang.Proofs.View.Address
import ComponentLang.Proofs.View.Placeholder

/-!
# Linking an alternate

The alternates of a condition are no nodes of their own: they are linked to the end of its chain,
and a walk comes to what they hold by the node at the head of the chain.

* `childLists_withAlternate`, `walk_cond_withAlternate` : bodies and walk of two linked chains;
* `Scope.walkAll_children_closeTop` : when a block of an alternate closes, a walk comes to its nodes
  right after those that the condition held before;
* `walk_withAlternate` : wherever the condition stands in a forest, linking adds to a walk the nodes
  of the new branches in one place, and changes nothing else.
-/

namespace ComponentLang

theorem childLists_withAlternate (n a : Chain ViewNode) :
    (ViewNode.cond (n.withAlternate a)).childLists =
      (ViewNode.cond n).childLists ++ (ViewNode.cond a).childLists := by
  simp only [ViewNode.childLists, Chain.branches_withAlternate, List.map_append]

theorem walkChain_withAlternate (n a : Chain ViewNode) :
    walkChain (n.withAlternate a) = walkChain n ++ walkChain a := by
  simp only [walkChain_eq, Chain.branches_withAlternate, List.map_append, List.flatMap_append]

theorem walk_cond_withAlternate (n a : Chain ViewNode) :
    (ViewNode.cond (n.withAlternate a)).walk =
      .cond (n.withAlternate a) :: (walkChain n ++ walkChain a) := by
  rw [ViewNode.walk, walkChain_withAlternate]

/-! ## Blocks of alternates -/

/-- When the block of an alternate closes, its nodes are walked through right after all that stands
under the condition so far, and what stands beside the condition is walked through as before. -/
theorem Scope.walkAll_children_closeTop {s : Scope} (h : s.Sound) {depth line : Int} {slot : Nat}
    {condition : Option Text} {nodes : List ViewNode} {rest : List Frame}
    (hframes : s.frames = ⟨depth, line, .view (.alternate slot condition) nodes⟩ :: rest) :
    ∃ left chain right, left.length = slot ∧
      sinkOf s.manifest.view rest = left ++ .cond chain :: right ∧
      walkAll s.closeTop.children =
        walkAll left ++ .cond (chain.withAlternate (.last ⟨condition, nodes, line⟩)) ::
          (walkChain chain ++ (walkAll nodes ++ walkAll right)) := by
  obtain ⟨m, frames⟩ := s
  obtain rfl : frames = _ := hframes
  obtain ⟨-, chain, hchain⟩ := h.1
  let branch : Branch ViewNode := ⟨condition, nodes, line⟩
  obtain ⟨left, right, hlength, hsink, hmodify⟩ :=
    exists_append_modify hchain (ViewNode.addAlternate branch)
  refine ⟨left, chain, right, hlength, hsink, ?_⟩
  have hclose : Scope.closeTop ⟨m, ⟨depth, line, .view (.alternate slot condition) nodes⟩ :: rest⟩ =
      Scope.mapChildren (·.modify slot (ViewNode.addAlternate branch)) ⟨m, rest⟩ := rfl
  rw [hclose, children_mapChildren, ← sinkOf_frames, hmodify, ViewNode.addAlternate,
    walkAll_append_cons, walk_cond_withAlternate, walkChain, walkBranch_eq, List.cons_append,
    List.append_assoc]

/-! ## Chains in a forest -/

/-- **An alternate is linked to the end of a chain, and nothing else changes.** The branches of a
chain `n` to which `a` was linked are those of `n` and then those of `a`, with their conditions,
nodes and lines, and so are the bodies that the node holds. If the node stands among those of a
forest, then a walk comes to the new node in the place of the old one, to all that stood under it,
and right after that to what stands under the branches of `a`; before and after, it is the same. A
node deeper in the forest has an address if a walk comes to it at all. If it is replaced there, the
walk changes in the same way, but for the nodes around it: they hold the new node now. -/
theorem walk_withAlternate (n a : Chain ViewNode) :
    (n.withAlternate a).branches = n.branches ++ a.branches ∧
    (ViewNode.cond (n.withAlternate a)).childLists =
      (ViewNode.cond n).childLists ++ (ViewNode.cond a).childLists ∧
    (∀ left right,
      walkAll (left ++ .cond n :: right) =
        walkAll left ++ .cond n :: (walkChain n ++ walkAll right) ∧
      walkAll (left ++ .cond (n.withAlternate a) :: right) =
        walkAll left ++ .cond (n.withAlternate a) ::
          (walkChain n ++ (walkChain a ++ walkAll right))) ∧
    ∀ nodes,
      (.cond n ∈ walkAll nodes ↔ ∃ p : Address, p.node? nodes = some (.cond n)) ∧
      ∀ p : Address, p.node? nodes = some (.cond n) →
        ∃ before before' after,
          walkAll nodes = before ++ .cond n :: (walkChain n ++ after) ∧
          walkAll (p.replace (.cond (n.withAlternate a)) nodes) =
            before' ++ .cond (n.withAlternate a) :: (walkChain n ++ (walkChain a ++ after)) ∧
          before.Forall₂ (Address.SameButFor (.cond n) (.cond (n.withAlternate a))) before' := by
  refine ⟨Chain.branches_withAlternate n a, childLists_withAlternate n a,
    fun left right => ⟨?_, ?_⟩, fun nodes => ⟨Address.mem_walkAll_iff, fun p hp => ?_⟩⟩
  · rw [walkAll_append_cons, ViewNode.walk, List.cons_append]
  · rw [walkAll_append_cons, walk_cond_withAlternate, List.cons_append, List.append_assoc]
  · obtain ⟨before, before', after, hwalk, hwalk', hsame⟩ :=
      Address.walkAll_replace hp (.cond (n.withAlternate a))
    rw [ViewNode.walk, List.cons_append] at hwalk
    rw [walk_cond_withAlternate, List.cons_append, List.append_assoc] at hwalk'
    exact ⟨before, before', after, hwalk, hwalk', hsame⟩

/-- In a fragment stands a loop, and in the loop a condition. The alternate that is linked to it has
an alternate itself. -/
theorem walk_withAlternate_loop :
    let n : Chain ViewNode := .last ⟨some "$a".toList, [.slot "yes".toList 4], 3⟩
    let a : Chain ViewNode :=
      .link ⟨some "$b".toList, [.slot "no".toList 6], 5⟩ (.last ⟨none, [.slot "none".toList 8], 7⟩)
    let nodes : List ViewNode :=
      [.fragment [.each "rows".toList "row".toList [.cond n, .slot "end".toList 9] 2] 1]
    let p : Address := .inside 0 0 (.inside 0 0 (.slot 0))
    p.node? nodes = some (.cond n) ∧
      ∃ before before' after,
        walkAll nodes = before ++ .cond n :: (walkChain n ++ after) ∧
        walkAll (p.replace (.cond (n.withAlternate a)) nodes) =
          before' ++ .cond (n.withAlternate a) :: (walkChain n ++ (walkChain a ++ after)) ∧
        before.Forall₂ (Address.SameButFor (.cond n) (.cond (n.withAlternate a))) before' :=
  ⟨rfl, ((walk_withAlternate _ _).2.2.2 _).2 _ rfl⟩

end ComponentLang
