import ComponentLang.Proofs.View.Conditions
import ComponentLang.Proofs.View.Conservation

/-!
# Alternates after one without a condition

An alternate is linked to its node when its block closes, and any line between may belong to another
block that shares the forest.

* `Continues`, `InOrder` : all branches have conditions; all but the last have;
* `rootAlternates` : the places in the forest of nodes to which open alternates will be linked;
* `InTurn` : an open alternate follows branches with conditions, and if it has none itself, no other
  alternate waits for the same node;
* `Scope.isLate`, `isLateAt` : a line opens an alternate behind one without a condition, or one
  without a condition that another will follow;
* `InTurn.closeTop`, `InTurn.dispatch` : open alternates stay in turn if no line is late;
* `conditions_buildManifest` : a conditional node has a condition, and so have all its branches but
  the last, if no line is late;
* `conditions_buildManifest_second` : a late line leaves a branch behind one without a condition.
-/

namespace ComponentLang

/-- All branches have conditions, so that one more may still be tried. -/
def Continues (conditions : List (Option Text)) : Prop := ∀ c ∈ conditions, c.isSome

/-- All branches but the last have conditions. -/
def InOrder (conditions : List (Option Text)) : Prop := ∀ c ∈ conditions.dropLast, c.isSome

theorem Continues.inOrder {conditions : List (Option Text)} (h : Continues conditions)
    (c : Option Text) : InOrder (conditions ++ [c]) := by
  rwa [InOrder, List.dropLast_concat]

theorem Continues.concat {conditions : List (Option Text)} (h : Continues conditions)
    {c : Option Text} (hc : c ≠ none) : Continues (conditions ++ [c]) :=
  List.forall_mem_append.2 ⟨h, List.forall_mem_singleton.2 (Option.isSome_iff_ne_none.2 hc)⟩

/-! ## Open alternates -/

/-- The place of the node to which an alternate is linked. -/
def Block.alternateSlot? : Block → Option Nat
  | .view (.alternate slot _) _ => some slot
  | _ => none

/-- The places in the forest of the nodes to which open alternates are linked. -/
def rootAlternates : List Frame → List Nat
  | [] => []
  | f :: rest => (if sharesRoot rest then f.block.alternateSlot?.toList else []) ++ rootAlternates rest

theorem mem_rootAlternates_cons {k : Nat} {f : Frame} {rest : List Frame} :
    k ∈ rootAlternates (f :: rest) ↔
      (sharesRoot rest ∧ f.block.alternateSlot? = some k) ∨ k ∈ rootAlternates rest := by
  rw [rootAlternates, List.mem_append]
  split_ifs with h <;> simp [h]

/-- An open alternate follows branches with conditions. If it has none itself, no other alternate is
open around it for the same node, to be linked after it. -/
def InTurn (root : List ViewNode) (f : Frame) (rest : List Frame) : Prop :=
  match f.block with
  | .view (.alternate slot condition) _ =>
    (∃ chain, (sinkOf root rest)[slot]? = some (.cond chain) ∧ Continues chain.conditions) ∧
      (condition = none → sharesRoot rest → slot ∉ rootAlternates rest)
  | _ => True

/-- All open alternates are in turn. -/
def InTurnFrames (root : List ViewNode) : List Frame → Prop
  | [] => True
  | f :: rest => InTurn root f rest ∧ InTurnFrames root rest

/-- All open alternates of the scope are in turn. -/
def Scope.InTurn (s : Scope) : Prop := InTurnFrames s.manifest.view s.frames

/-! ### Only the view counts -/

theorem rootAlternates_skin (frames : List Frame) :
    rootAlternates (frames.map Frame.skin) = rootAlternates frames := by
  induction frames with
  | nil => rfl
  | cons f rest ih =>
    have hslot : f.skin.block.alternateSlot? = f.block.alternateSlot? := by
      obtain ⟨depth, line, block⟩ := f
      cases block <;> rfl
    rw [List.map_cons, rootAlternates, rootAlternates, ih, sharesRoot_skin, hslot]

theorem inTurn_skin (root : List ViewNode) (f : Frame) (rest : List Frame) :
    InTurn root f.skin (rest.map Frame.skin) ↔ InTurn root f rest := by
  obtain ⟨depth, line, block⟩ := f
  cases block with
  | view role nodes =>
    cases role <;>
      simp only [InTurn, Frame.skin, Block.skin, sinkOf_skin, sharesRoot_skin, rootAlternates_skin]
  | _ => exact Iff.rfl

theorem inTurnFrames_skin (root : List ViewNode) (frames : List Frame) :
    InTurnFrames root (frames.map Frame.skin) ↔ InTurnFrames root frames := by
  induction frames with
  | nil => exact Iff.rfl
  | cons f rest ih => rw [List.map_cons, InTurnFrames, InTurnFrames, inTurn_skin, ih]

theorem Scope.SameTree.inTurn {s s' : Scope} (h : Scope.SameTree s s') (hs : s.InTurn) : s'.InTurn := by
  unfold Scope.InTurn at hs ⊢
  rwa [h.2, ← inTurnFrames_skin, h.1, inTurnFrames_skin]

/-! ### Changes to the forest -/

/-- At the given places, chains that continue still do. -/
def KeepsChains (slots : List Nat) (nodes nodes' : List ViewNode) : Prop :=
  ∀ k ∈ slots, ∀ chain, nodes[k]? = some (.cond chain) → Continues chain.conditions →
    ∃ chain', nodes'[k]? = some (.cond chain') ∧ Continues chain'.conditions

theorem keepsChains_append {slots : List Nat} (nodes : List ViewNode) (node : ViewNode) :
    KeepsChains slots nodes (nodes ++ [node]) := by
  intro k _ chain hchain hcontinues
  refine ⟨chain, ?_, hcontinues⟩
  rw [List.getElem?_append_left (List.getElem?_eq_some_iff.1 hchain).1, hchain]

/-- A change to one node is harmless if it keeps a chain that continues. -/
theorem keepsChains_modify {slots : List Nat} {slot : Nat} {f : ViewNode → ViewNode}
    (hf : slot ∈ slots → ∀ chain, Continues chain.conditions →
      ∃ chain', f (.cond chain) = .cond chain' ∧ Continues chain'.conditions)
    (nodes : List ViewNode) : KeepsChains slots nodes (nodes.modify slot f) := by
  intro k hk chain hchain hcontinues
  rw [List.getElem?_modify, hchain]
  by_cases hslot : slot = k
  · obtain ⟨chain', hchain', hcontinues'⟩ := hf (hslot ▸ hk) chain hcontinues
    exact ⟨chain', by simp [hslot, hchain'], hcontinues'⟩
  · exact ⟨chain, by simp [hslot], hcontinues⟩

theorem InTurn.keeps {root root' : List ViewNode} {f : Frame} {rest : List Frame}
    (h : InTurn root f rest) (hk : KeepsChains (rootAlternates (f :: rest)) root root') :
    InTurn root' f rest := by
  obtain ⟨depth, line, block⟩ := f
  cases block with
  | view role nodes =>
    cases role with
    | alternate slot condition =>
      obtain ⟨⟨chain, hchain, hcontinues⟩, halone⟩ := h
      refine ⟨?_, halone⟩
      by_cases hroot : sharesRoot rest
      · rw [sinkOf_of_sharesRoot hroot] at hchain ⊢
        exact hk slot (mem_rootAlternates_cons.2 (Or.inl ⟨hroot, rfl⟩)) chain hchain hcontinues
      · rw [sinkOf_of_not_sharesRoot hroot root' root]
        exact ⟨chain, hchain, hcontinues⟩
    | _ => exact h
  | _ => exact h

theorem InTurnFrames.keeps {root root' : List ViewNode} {frames : List Frame}
    (h : InTurnFrames root frames) (hk : KeepsChains (rootAlternates frames) root root') :
    InTurnFrames root' frames := by
  induction frames with
  | nil => trivial
  | cons f rest ih =>
    exact ⟨h.1.keeps hk, ih h.2 fun k hmem => hk k (mem_rootAlternates_cons.2 (Or.inr hmem))⟩

namespace Scope

/-! ## Lines that come too late -/

/-- The line opens an alternate behind a branch without a condition, or one without a condition while
another alternate of the same node is open, which will be linked after it. -/
def isLate (s : Scope) (t : Token) : Bool :=
  s.InView &&
    match ViewLine.read t, s.children.getLast? with
    | .alternate condition _, some (.cond chain) =>
      chain.conditions.any Option.isNone ||
        (condition.isNone && sharesRoot s.frames &&
          (rootAlternates s.frames).contains (s.children.length - 1))
    | _, _ => false

end Scope

/-- The token at a position comes too late. -/
def isLateAt (ts : List Token) (i : Nat) : Bool := ts[i]?.any (Scope.around ts i).isLate

namespace Scope

/-! ## Alternates in turn -/

section

variable {s s' : Scope}

theorem InTurn.mapChildren (h : s.InTurn) {f : List ViewNode → List ViewNode}
    (hf : sharesRoot s.frames → KeepsChains (rootAlternates s.frames) s.children (f s.children)) :
    (s.mapChildren f).InTurn := by
  by_cases hroot : sharesRoot s.frames
  · have hf := hf hroot
    rcases s with ⟨m, _ | ⟨⟨depth, line, block⟩, rest⟩⟩
    · trivial
    · cases block with
      | view role nodes => cases hroot
      | _ => exact InTurnFrames.keeps h hf
  · rcases s with ⟨m, _ | ⟨⟨depth, line, block⟩, rest⟩⟩
    · exact absurd rfl hroot
    · cases block with
      | view role nodes => cases role <;> exact h
      | _ => exact absurd rfl hroot

theorem InTurn.append (h : s.InTurn) (node : ViewNode) : (s.append node).InTurn :=
  h.mapChildren fun _ => keepsChains_append _ _

theorem InTurn.addBranch (h : s.InTurn) (branch : Branch ViewNode) : (s.addBranch branch).InTurn := by
  rcases s with ⟨m, _ | ⟨⟨depth, line, block⟩, rest⟩⟩
  · exact h
  · cases block with
    | choice slot cases fallback =>
      unfold Scope.addBranch
      dsimp only
      split_ifs <;> exact h
    | _ => exact h

/-- A block that holds no alternate is in turn. -/
theorem InTurn.push (h : s.InTurn) (t : Token) {block : Block} (hb : block.alternateSlot? = none) :
    (s.push t block).InTurn := by
  refine ⟨?_, h⟩
  cases block with
  | view role nodes =>
    cases role with
    | alternate slot condition => cases hb
    | _ => trivial
  | _ => trivial

/-- When an alternate is linked, those that are still open for the same node have a condition before
them. -/
theorem InTurn.closeTop (h : s.InTurn) : s.closeTop.InTurn := by
  rcases s with ⟨m, _ | ⟨⟨depth, line, block⟩, rest⟩⟩
  · exact h
  · obtain ⟨hturn, hrest⟩ : ComponentLang.InTurn m.view ⟨depth, line, block⟩ rest ∧ InTurn ⟨m, rest⟩ := h
    cases block with
    | view role nodes =>
      cases role with
      | node slot =>
        refine hrest.mapChildren fun _ => keepsChains_modify (fun _ chain hcontinues => ?_) _
        exact ⟨_, rfl, by rwa [Chain.conditions_setChildren]⟩
      | alternate slot condition =>
        refine hrest.mapChildren fun hroot => keepsChains_modify (fun hslot chain hcontinues => ?_) _
        refine ⟨_, rfl, ?_⟩
        rw [Chain.conditions_withAlternate]
        exact hcontinues.concat fun hnone => hturn.2 hnone hroot hslot
      | branch condition => exact hrest.addBranch _
    | choice slot cases fallback =>
      exact hrest.mapChildren fun _ => keepsChains_modify
        (fun _ chain hcontinues => ⟨chain, rfl, hcontinues⟩) _
    | _ => exact (sameTree_publish rfl _).inTurn hrest

/-- What is linked in turn comes in order. -/
theorem InTurn.links (h : s.InTurn) : s.Links InOrder := by
  rintro depth line slot condition nodes rest hframes chain hchain -
  unfold InTurn at h
  rw [hframes] at h
  obtain ⟨⟨⟨chain', hchain', hcontinues⟩, -⟩, -⟩ := h
  cases hchain.symm.trans hchain'
  exact hcontinues.inOrder condition

theorem InTurn.nodeLine (h : s.InTurn) {t : Token} (hv : s.InView) (hlate : s.isLate t = false)
    (hline : s.nodeLine t = .ok s') : s'.InTurn := by
  obtain ⟨s₀, hs₀, hcases⟩ := nodeLine_ok hline
  have h₀ : s₀.InTurn := hs₀.sameTree.inTurn h
  rcases hcases with ⟨node, _, rfl⟩ | ⟨node, nodes, _, rfl⟩ | ⟨subject, _, rfl⟩ |
    ⟨condition, nodes, hread, hlast, rfl⟩
  · exact h₀.append node
  · exact (h₀.append _).push t rfl
  · exact (h₀.append _).push t rfl
  · refine ⟨?_, h₀⟩
    have hchildren : s₀.children = s.children := by
      rw [← sinkOf_frames, ← sinkOf_frames, hs₀.1, hs₀.2]
    rw [hchildren] at hlast
    cases hl : s.children.getLast? with
    | none => simp [hl] at hlast
    | some last =>
      cases last with
      | cond chain =>
        simp only [isLate, hread, hl, decide_eq_true hv, Bool.true_and, Bool.or_eq_false_iff] at hlate
        obtain ⟨hconditions, halone⟩ := hlate
        refine ⟨⟨chain, ?_, fun c hc => ?_⟩, fun hnone hroot hmem => ?_⟩
        · show (sinkOf s₀.manifest.view s₀.frames)[s₀.children.length - 1]? = _
          rw [sinkOf_frames, hchildren, ← List.getLast?_eq_getElem?, hl]
        · have hc := List.any_eq_false.1 hconditions c hc
          rw [Option.isSome_iff_ne_none]
          simpa using hc
        · rw [hs₀.1] at hroot hmem
          rw [hchildren] at hmem
          simp [hnone, hroot, hmem] at halone
      | _ => simp [hl, ViewNode.isCond] at hlast

theorem InTurn.dispatch (h : s.InTurn) {t : Token} (hlate : s.isLate t = false)
    (hline : s.dispatch t = .ok s') : s'.InTurn := by
  rcases dispatch_cases hline with ⟨_, hv, hline⟩ | ⟨_, _, hline⟩ | ⟨_, ha⟩
  · exact h.nodeLine hv hlate hline
  · rw [branchLine_eq] at hline
    split at hline
    · cases hline
      exact h.push t rfl
    · cases hline
  · rcases ha with ha | ⟨s₀, block, ha, hb, rfl⟩
    · exact ha.inTurn h
    · refine (ha.inTurn h).push t ?_
      cases block with
      | view role nodes => cases hb
      | _ => rfl

end

end Scope

/-! ## Conditions in a manifest -/

/-- Every conditional node has a condition, whatever is linked to it. -/
theorem head_isSome_around (ts : List Token) :
    (Scope.around ts ts.length).Throughout fun conditions => conditions.head?.any Option.isSome := by
  have hlinks : ∀ s : Scope, s.Links fun conditions => conditions.head?.any Option.isSome := by
    intro s depth line slot condition nodes rest _ chain _ hp
    rw [Chain.head?_conditions] at hp
    rwa [List.head?_append, Chain.head?_conditions]
  exact Scope.around_induction (Scope.throughout_start _) (fun s hs => hs.closeTop (hlinks s))
    (fun i t s' _ hs hline => hs.dispatch (fun _ => rfl) hline) (Nat.le_refl _)

/-- If no line is late, alternates are linked in order. -/
theorem inOrder_around {ts : List Token} (h : ∀ i < ts.length, isLateAt ts i = false) :
    (Scope.around ts ts.length).Throughout InOrder ∧ (Scope.around ts ts.length).InTurn := by
  refine Scope.around_induction (I := fun s => s.Throughout InOrder ∧ s.InTurn)
    ⟨Scope.throughout_start _, trivial⟩ ?_ ?_ (Nat.le_refl _)
  · rintro s ⟨hthroughout, hturn⟩
    exact ⟨hthroughout.closeTop hturn.links, hturn.closeTop⟩
  · rintro i t s' ht ⟨hthroughout, hturn⟩ hline
    have hlate := h i (List.getElem?_eq_some_iff.1 ht).1
    rw [isLateAt, ht] at hlate
    exact ⟨hthroughout.dispatch (fun c => List.forall_mem_nil _) hline, hturn.dispatch hlate hline⟩

/-- **An unconditional alternate ends its chain, if no line is late.** Wherever a conditional node
stands in the view, in a body, a branch or an alternate, it has a condition. If no line opens an
alternate behind one without a condition, then only the last of its branches may be without one. -/
theorem conditions_buildManifest (ts : List Token) (c : Companions) :
    (∀ chain, ViewNode.cond chain ∈ walkAll (buildManifest ts c).view → chain.first.condition.isSome) ∧
    ((∀ i < ts.length, isLateAt ts i = false) →
      ∀ chain, ViewNode.cond chain ∈ walkAll (buildManifest ts c).view →
        ∀ b ∈ chain.branches.dropLast, b.condition.isSome) := by
  rw [around_length]
  constructor
  · intro chain hchain
    have hhead := (head_isSome_around ts).view chain hchain
    rwa [Chain.head?_conditions] at hhead
  · intro h chain hchain b hb
    refine (inOrder_around h).1.view chain hchain b.condition ?_
    rw [Chain.conditions, ← List.map_dropLast]
    exact List.mem_map_of_mem hb

/-- A condition with an alternate. Under the alternate stands a view, and in it an alternate of the
same condition, which is linked first. -/
def ladder : List Token := [
  ⟨1, 0, .control, "if $a: x".toList, "if $a: x".toList, 0⟩,
  ⟨2, 0, .control, "else: y".toList, "else: y".toList, 0⟩,
  ⟨3, 4, .view, "view:".toList, "    view:".toList, 1⟩,
  ⟨4, 8, .control, "else if $b: z".toList, "        else if $b: z".toList, 2⟩]

theorem conditions_buildManifest_ladder :
    (∀ i < ladder.length, isLateAt ladder i = false) ∧
      ∀ chain, ViewNode.cond chain ∈ walkAll (buildManifest ladder {}).view →
        chain.first.condition.isSome ∧ ∀ b ∈ chain.branches.dropLast, b.condition.isSome := by
  have hlate : ∀ i < ladder.length, isLateAt ladder i = false := by decide
  obtain ⟨hfirst, hbranches⟩ := conditions_buildManifest ladder {}
  exact ⟨hlate, fun chain hchain => ⟨hfirst chain hchain, hbranches hlate chain hchain⟩⟩

/-- A second alternate without a condition comes too late, and it is linked behind the first. -/
theorem conditions_buildManifest_second :
    let ts : List Token := [
      ⟨1, 0, .view, "view:".toList, "view:".toList, 0⟩,
      ⟨2, 4, .control, "if $a: x".toList, "    if $a: x".toList, 1⟩,
      ⟨3, 4, .control, "else: y".toList, "    else: y".toList, 1⟩,
      ⟨4, 4, .control, "else: z".toList, "    else: z".toList, 1⟩]
    isLateAt ts 3 ∧ ∃ chain, (buildManifest ts {}).view = [.cond chain] ∧
      chain.conditions = [some "$a".toList, none, none] ∧
      ¬ ∀ b ∈ chain.branches.dropLast, b.condition.isSome := by
  refine ⟨by decide, _, rfl, rfl, fun h => ?_⟩
  have hsecond := h _ (List.mem_cons_of_mem _ List.mem_cons_self)
  cases hsecond

end ComponentLang
