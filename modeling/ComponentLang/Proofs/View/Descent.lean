import ComponentLang.Proofs.Scope.Enclosing
import ComponentLang.Proofs.View.Line

/-!
# Views by recursive descent

A view can be read without a stack of open blocks: what stands under a header is the run of deeper
tokens right after it, and is read by recursion.

* `descend nodes ts` : the nodes of a block that holds `nodes` before the tokens `ts` are read;
* `descendBranches ts` : the branches of a choice that the tokens `ts` stand under;
* `ViewNode.ofBranches` : a choice with given branches. It keeps the conditional ones in order, and
  of the others the last;
* `run_inView`, `run_inChoice` : a run that stays inside a block leaves in it what recursion reads;
* `view_buildManifest` : the forest of a manifest is what recursion reads.
-/

namespace ComponentLang

open Scope (under past length_under_le length_past_le)

/-- A choice with the given branches. -/
def ViewNode.ofBranches (subject : Text) (branches : List (Branch ViewNode)) (line : Int) :
    ViewNode :=
  .choice subject (branches.filter (·.condition.isSome))
    (branches.filter (·.condition.isNone)).getLast? line

mutual

/-- The nodes of a block in which `nodes` stand already, after the tokens. -/
def descend (nodes : List ViewNode) : List Token → List ViewNode
  | [] => nodes
  | t :: ts =>
    match ViewLine.read t with
    | .leaf node => descend (nodes ++ [node]) ts
    | .header node first =>
      descend (nodes ++ [node.setChildren (descend first (under t ts))]) (past t ts)
    | .choice subject =>
      descend (nodes ++ [.ofBranches subject (descendBranches (under t ts)) t.line]) (past t ts)
    | .alternate condition first =>
      match nodes.getLast? with
      | some (.cond chain) =>
        let branch : Branch ViewNode := ⟨condition, descend first (under t ts), t.line⟩
        descend (nodes.dropLast ++ [.cond (chain.withAlternate (.last branch))]) (past t ts)
      | _ => descend nodes ts
    | .stray => descend nodes ts
termination_by ts => ts.length
decreasing_by
  all_goals have := length_under_le t ts
  all_goals have := length_past_le t ts
  all_goals simp only [List.length_cons]
  all_goals omega

/-- The branches that the tokens right under a choice open. -/
def descendBranches : List Token → List (Branch ViewNode)
  | [] => []
  | t :: ts =>
    match BranchLine.read? t with
    | some condition =>
      ⟨condition, descend (headerNodes t) (under t ts), t.line⟩ :: descendBranches (past t ts)
    | none => descendBranches ts
termination_by ts => ts.length
decreasing_by
  all_goals have := length_under_le t ts
  all_goals have := length_past_le t ts
  all_goals simp only [List.length_cons]
  all_goals omega

end

namespace Scope

/-! ## The nodes of a block -/

/-- Puts other nodes in the place of those among which a line of the view stands. -/
def fill (nodes : List ViewNode) (s : Scope) : Scope := s.mapChildren fun _ => nodes

theorem children_mapChildren (f : List ViewNode → List ViewNode) (s : Scope) :
    (s.mapChildren f).children = f s.children := by
  rcases s with ⟨m, _ | ⟨⟨depth, line, block⟩, rest⟩⟩
  · rfl
  · cases block <;> rfl

theorem mapChildren_eq_fill (f : List ViewNode → List ViewNode) (s : Scope) :
    s.mapChildren f = s.fill (f s.children) := by
  rcases s with ⟨m, _ | ⟨⟨depth, line, block⟩, rest⟩⟩
  · rfl
  · cases block <;> rfl

theorem fill_mapChildren (nodes : List ViewNode) (f : List ViewNode → List ViewNode) (s : Scope) :
    (s.mapChildren f).fill nodes = s.fill nodes := by
  rcases s with ⟨m, _ | ⟨⟨depth, line, block⟩, rest⟩⟩
  · rfl
  · cases block <;> rfl

theorem append_eq_fill (node : ViewNode) (s : Scope) :
    s.append node = s.fill (s.children ++ [node]) := mapChildren_eq_fill _ _

theorem modify_concat {α : Type} (l : List α) (a : α) (f : α → α) :
    (l ++ [a]).modify l.length f = l ++ [f a] := by
  induction l with
  | nil => rfl
  | cons b l ih => simpa using ih

/-- The innermost block gathers nodes and is of the given depth. Without a block, the root does. -/
inductive Gathers (s : Scope) (depth : Int) : Prop where
  | root (h : s.frames = []) (hd : depth = rootDepth)
  | block (line : Int) (role : ViewRole) (nodes : List ViewNode) (rest : List Frame)
      (h : s.frames = ⟨depth, line, .view role nodes⟩ :: rest)

theorem Gathers.inView {s : Scope} {depth : Int} (h : s.Gathers depth) : s.InView := by
  rcases h with ⟨h, _⟩ | ⟨line, role, nodes, rest, h⟩ <;>
    simp [InView, top?, h, Block.holdsNodes]

theorem Gathers.shallow {s : Scope} {depth e : Int} (h : s.Gathers depth) (he : depth < e) :
    ∀ f ∈ s.outline.head?, f.depth < e := by
  rcases h with ⟨h, _⟩ | ⟨line, role, nodes, rest, h⟩
  · simp [outline, h]
  · simpa [outline, h] using he

theorem Gathers.sameView {s s' : Scope} {depth : Int} (h : s.Gathers depth) (hv : SameView s s') :
    s'.Gathers depth := by
  rcases h with ⟨h, hd⟩ | ⟨line, role, nodes, rest, h⟩
  · exact .root (hv.1.trans h) hd
  · exact .block line role nodes rest (hv.1.trans h)

theorem Gathers.fill {s : Scope} {depth : Int} (h : s.Gathers depth) (nodes : List ViewNode) :
    (s.fill nodes).Gathers depth := by
  rcases h with ⟨h, hd⟩ | ⟨line, role, old, rest, h⟩
  · exact .root (by simp [Scope.fill, mapChildren, h]) hd
  · exact .block line role nodes rest (by simp [Scope.fill, mapChildren, h])

theorem gathers_push (s : Scope) (t : Token) (role : ViewRole) (nodes : List ViewNode) :
    (s.push t (.view role nodes)).Gathers t.depth := .block t.line role nodes s.frames rfl

theorem step_inView {s : Scope} {depth : Int} {t : Token} (hs : s.Gathers depth)
    (hd : depth < t.depth) (hc : isViewCategory t.category) :
    (s.step t).1 = match s.nodeLine t with
      | .ok s' => s'
      | .error _ => s := by
  unfold step
  rw [closeTo_of_lt (hs.shallow hd), dispatch_inView hs.inView hc]
  split <;> simp_all

/-! ## The branches of a choice -/

/-- The innermost block is a choice of the given depth. -/
def Chooses (s : Scope) (depth : Int) : Prop :=
  ∃ line slot cases fallback rest, s.frames = ⟨depth, line, .choice slot cases fallback⟩ :: rest

theorem step_inChoice {s : Scope} {depth : Int} {t : Token} (hs : s.Chooses depth)
    (hd : depth < t.depth) (hc : isViewCategory t.category) :
    (s.step t).1 = match BranchLine.read? t with
      | some condition => s.push t (.view (.branch condition) (headerNodes t))
      | none => s := by
  obtain ⟨line, slot, cases, fallback, rest, h⟩ := hs
  have hin : s.InChoice := by simp [InChoice, top?, h, Block.isChoice]
  have hlt : ∀ f ∈ s.outline.head?, f.depth < t.depth := by simpa [outline, h] using hd
  unfold step
  rw [closeTo_of_lt hlt, dispatch_inChoice hin hc, branchLine_eq]
  cases BranchLine.read? t <;> rfl

/-- Adds branches in turn. -/
def addBranches (branches : List (Branch ViewNode)) (s : Scope) : Scope :=
  branches.foldl (fun s b => s.addBranch b) s

theorem addBranches_push (s : Scope) (t : Token) (slot : Nat)
    (cases branches : List (Branch ViewNode)) (fallback : Option (Branch ViewNode)) :
    addBranches branches (s.push t (.choice slot cases fallback)) =
      s.push t (.choice slot (cases ++ branches.filter (·.condition.isSome))
        ((branches.filter (·.condition.isNone)).getLast?.or fallback)) := by
  induction branches generalizing cases fallback with
  | nil => simp [addBranches]
  | cons b branches ih =>
    rw [addBranches, List.foldl_cons, ← addBranches]
    cases hb : b.condition with
    | none =>
      have hadd : (s.push t (.choice slot cases fallback)).addBranch b =
          s.push t (.choice slot cases (some b)) := by simp [addBranch, push, hb]
      rw [hadd, ih]
      cases hl : (branches.filter (·.condition.isNone)).getLast? <;>
        simp [hb, List.getLast?_cons, hl]
    | some condition =>
      have hadd : (s.push t (.choice slot cases fallback)).addBranch b =
          s.push t (.choice slot (cases ++ [b]) fallback) := by simp [addBranch, push, hb]
      rw [hadd, ih]
      simp [hb]

theorem SameView.addBranches {s s' : Scope} (h : SameView s s')
    (branches : List (Branch ViewNode)) :
    SameView (s.addBranches branches) (s'.addBranches branches) := by
  induction branches generalizing s s' with
  | nil => exact h
  | cons b branches ih => exact ih (h.addBranch b)

/-! ## Runs inside a block -/

theorem children_fill (nodes : List ViewNode) (s : Scope) : (s.fill nodes).children = nodes :=
  children_mapChildren _ _

theorem fill_children (s : Scope) : s.fill s.children = s := by
  rcases s with ⟨m, _ | ⟨⟨depth, line, block⟩, rest⟩⟩
  · rfl
  · cases block <;> rfl

theorem fill_fill (nodes old : List ViewNode) (s : Scope) : (s.fill old).fill nodes = s.fill nodes :=
  fill_mapChildren _ _ _

theorem SameView.fill {s s' : Scope} (h : SameView s s') (nodes : List ViewNode) :
    SameView (s.fill nodes) (s'.fill nodes) := h.mapChildren _

theorem setChildren_setChildren (node : ViewNode) (nodes first : List ViewNode) :
    (node.setChildren first).setChildren nodes = node.setChildren nodes := by
  cases node with
  | cond chain => cases chain <;> rfl
  | _ => rfl

/-- The nodes under a header become its body. -/
theorem run_openNode {s : Scope} {t : Token} {ts : List Token} {node : ViewNode}
    {first nodes : List ViewNode} (hs : ∀ f ∈ s.outline.head?, f.depth < t.depth)
    (hunder : SameView ((s.openNode t node first).fill nodes)
      (((s.openNode t node first).run (under t ts)).closeTo (t.depth + 1))) :
    ∃ s₂, SameView (s.fill (s.children ++ [node.setChildren nodes])) s₂ ∧
      ∀ e ≤ t.depth, ((s.openNode t node first).run ts).closeTo e =
        (s₂.run (past t ts)).closeTo e := by
  have hpub : publish ⟨t.depth, t.line, .view (.node s.children.length) nodes⟩
      (s.append (node.setChildren first)) = s.fill (s.children ++ [node.setChildren nodes]) := by
    rw [publish_node, mapChildren_eq_fill, append_eq_fill, fill_fill, children_fill,
      modify_concat, setChildren_setChildren]
  rw [← hpub]
  exact run_block (by rwa [outline_append]) hunder

/-- The branches under a choice become its own. -/
theorem run_openChoice {s : Scope} {t : Token} {ts : List Token} {subject : Text}
    {branches : List (Branch ViewNode)} (hs : ∀ f ∈ s.outline.head?, f.depth < t.depth)
    (hunder : SameView ((s.openChoice t subject).addBranches branches)
      (((s.openChoice t subject).run (under t ts)).closeTo (t.depth + 1))) :
    ∃ s₂, SameView (s.fill (s.children ++ [.ofBranches subject branches t.line])) s₂ ∧
      ∀ e ≤ t.depth, ((s.openChoice t subject).run ts).closeTo e =
        (s₂.run (past t ts)).closeTo e := by
  have hpub : publish ⟨t.depth, t.line, .choice s.children.length
        (branches.filter (·.condition.isSome)) (branches.filter (·.condition.isNone)).getLast?⟩
      (s.append (.choice subject [] none t.line)) =
        s.fill (s.children ++ [.ofBranches subject branches t.line]) := by
    rw [publish_choice, mapChildren_eq_fill, append_eq_fill, fill_fill, children_fill, modify_concat]
    rfl
  rw [← hpub]
  refine run_block (by rwa [outline_append]) ?_
  rw [openChoice, addBranches_push, List.nil_append, Option.or_none] at hunder
  exact hunder

/-- The nodes under an alternate become a further branch of the condition before it. -/
theorem run_openAlternate {s s₁ : Scope} {t : Token} {ts : List Token} {condition : Option Text}
    {before first nodes : List ViewNode} {chain : Chain ViewNode}
    (hs : ∀ f ∈ s.outline.head?, f.depth < t.depth) (hbefore : s.children = before ++ [.cond chain])
    (h₁ : s₁ = s.push t (.view (.alternate before.length condition) first))
    (hunder : SameView (s₁.fill nodes) ((s₁.run (under t ts)).closeTo (t.depth + 1))) :
    ∃ s₂, SameView (s.fill (before ++
        [.cond (chain.withAlternate (.last ⟨condition, nodes, t.line⟩))])) s₂ ∧
      ∀ e ≤ t.depth, (s₁.run ts).closeTo e = (s₂.run (past t ts)).closeTo e := by
  have hpub : publish ⟨t.depth, t.line, .view (.alternate before.length condition) nodes⟩ s =
      s.fill (before ++ [.cond (chain.withAlternate (.last ⟨condition, nodes, t.line⟩))]) := by
    rw [publish_alternate, mapChildren_eq_fill, hbefore, modify_concat]
    rfl
  rw [← hpub]
  rw [h₁] at hunder ⊢
  exact run_block hs hunder

/-- The nodes under the header of a branch become a branch of the choice. -/
theorem run_openBranch {s : Scope} {t : Token} {ts : List Token} {condition : Option Text}
    {first nodes : List ViewNode} (hs : ∀ f ∈ s.outline.head?, f.depth < t.depth)
    (hunder : SameView ((s.push t (.view (.branch condition) first)).fill nodes)
      (((s.push t (.view (.branch condition) first)).run (under t ts)).closeTo (t.depth + 1))) :
    ∃ s₂, SameView (s.addBranch ⟨condition, nodes, t.line⟩) s₂ ∧
      ∀ e ≤ t.depth, ((s.push t (.view (.branch condition) first)).run ts).closeTo e =
        (s₂.run (past t ts)).closeTo e :=
  run_block hs hunder

/-- A run that goes on from a block with other nodes is told by these nodes. -/
theorem SameView.descend {s s₂ u : Scope} {nodes : List ViewNode} {ts : List Token}
    (hs : SameView (s.fill nodes) s₂) (h : SameView (s₂.fill (descend s₂.children ts)) u) :
    SameView (s.fill (ComponentLang.descend nodes ts)) u := by
  have hchildren : s₂.children = nodes := by rw [hs.children, children_fill]
  rw [hchildren] at h
  refine .trans ?_ h
  rw [← fill_fill _ nodes]
  exact hs.fill _

mutual

/-- Tokens that all stand inside a block leave in it the nodes that recursion reads. -/
theorem run_inView {depth : Int} : ∀ (ts : List Token) (s : Scope), s.Gathers depth →
    (∀ t ∈ ts, depth < t.depth) → (∀ t ∈ ts, isViewCategory t.category) →
    SameView (s.fill (descend s.children ts)) ((s.run ts).closeTo (depth + 1))
  | [], s, hs, _, _ => by
    rw [run, descend, closeTo_of_lt (hs.shallow (by omega)), fill_children]
    exact .refl s
  | t :: ts, s, hs, hd, hc => by
    have hdt : depth < t.depth := hd t (by simp)
    have hd' : ∀ u ∈ ts, depth < u.depth := fun u hu => hd u (by simp [hu])
    have hc' : ∀ u ∈ ts, isViewCategory u.category := fun u hu => hc u (by simp [hu])
    have hcu : ∀ u ∈ under t ts, isViewCategory u.category := fun u hu => hc' u (mem_of_mem_under hu)
    have hdu : ∀ u ∈ under t ts, t.depth < u.depth := fun u hu => depth_of_mem_under hu
    obtain ⟨s₀, hs₀, hline⟩ := nodeLine_cases s t
    have hstep := step_inView hs hdt (hc t (by simp))
    -- after a block: what is left of it is one node more or one node changed, and the run goes on
    have hpast : ∀ {nodes : List ViewNode} {s₂ : Scope}, SameView (s₀.fill nodes) s₂ →
        SameView (s.fill (descend nodes (past t ts))) ((s₂.run (past t ts)).closeTo (depth + 1)) := by
      intro nodes s₂ h₂
      have h₂ : SameView (s.fill nodes) s₂ := (hs₀.fill nodes).trans h₂
      exact h₂.descend (run_inView (past t ts) s₂ ((hs.fill nodes).sameView h₂)
        (fun u hu => hd' u (mem_of_mem_past hu)) (fun u hu => hc' u (mem_of_mem_past hu)))
    -- a line that opens no block leaves the deeper lines to this one
    have hflat : ∀ {nodes : List ViewNode} {s₂ : Scope}, SameView (s.fill nodes) s₂ →
        SameView (s.fill (descend nodes ts)) ((s₂.run ts).closeTo (depth + 1)) := by
      intro nodes s₂ h₂
      exact h₂.descend (run_inView ts s₂ ((hs.fill nodes).sameView h₂) hd' hc')
    have hsame : SameView (s.fill s.children) s := by
      rw [fill_children]
      exact .refl s
    have hg₀ : s₀.Gathers depth := hs.sameView hs₀
    rw [run, hstep, descend]
    cases hread : ViewLine.read t with
    | leaf node =>
      simp only [hread] at hline ⊢
      rw [hline]
      refine hflat ?_
      rw [← append_eq_fill]
      exact hs₀.append node
    | header node first =>
      simp only [hread] at hline ⊢
      rw [hline]
      have hunder := run_inView (under t ts) (s₀.openNode t node first) (gathers_push _ _ _ _) hdu hcu
      obtain ⟨s₂, h₂, hrun⟩ := run_openNode (hg₀.shallow hdt) hunder
      rw [hs₀.children] at h₂
      dsimp only
      rw [hrun _ (by omega)]
      exact hpast h₂
    | choice subject =>
      simp only [hread] at hline ⊢
      rw [hline]
      have hunder := run_inChoice (under t ts) (s₀.openChoice t subject)
        ⟨t.line, _, _, _, _, rfl⟩ hdu hcu
      obtain ⟨s₂, h₂, hrun⟩ := run_openChoice (hg₀.shallow hdt) hunder
      rw [hs₀.children] at h₂
      dsimp only
      rw [hrun _ (by omega)]
      exact hpast h₂
    | alternate condition first =>
      simp only [hread] at hline ⊢
      rw [hline, openAlternate, hs₀.children]
      cases hlast : s.children.getLast? with
      | none => exact hflat hsame
      | some last =>
        cases last with
        | cond chain =>
          obtain ⟨before, hbefore⟩ := List.getLast?_eq_some_iff.1 hlast
          have hslot : s.children.length - 1 = before.length := by simp [hbefore]
          have hunder := run_inView (under t ts)
            (s₀.push t (.view (.alternate before.length condition) first))
            (gathers_push _ _ _ _) hdu hcu
          obtain ⟨s₂, h₂, hrun⟩ := run_openAlternate (hg₀.shallow hdt)
            (hs₀.children.trans hbefore) rfl hunder
          rw [hslot]
          simp only [Option.any_some, ViewNode.isCond, if_true]
          rw [hrun _ (by omega), show s.children.dropLast = before by simp [hbefore]]
          exact hpast h₂
        | _ => exact hflat hsame
    | stray =>
      simp only [hread] at hline ⊢
      obtain ⟨reason, hline⟩ := hline
      rw [hline]
      exact hflat hsame
termination_by ts => ts.length
decreasing_by
  all_goals have := length_under_le t ts
  all_goals have := length_past_le t ts
  all_goals simp only [List.length_cons]
  all_goals omega

/-- Tokens that all stand right under a choice leave in it the branches that recursion reads. -/
theorem run_inChoice {depth : Int} : ∀ (ts : List Token) (s : Scope), s.Chooses depth →
    (∀ t ∈ ts, depth < t.depth) → (∀ t ∈ ts, isViewCategory t.category) →
    SameView (s.addBranches (descendBranches ts)) ((s.run ts).closeTo (depth + 1))
  | [], s, hs, _, _ => by
    obtain ⟨line, slot, cases, fallback, rest, h⟩ := hs
    have hhead : ∀ f ∈ s.outline.head?, f.depth < depth + 1 := by
      rw [outline, h]
      rintro f ⟨⟩
      exact Int.lt_add_one_of_le (Int.le_refl depth)
    rw [run, descendBranches, closeTo_of_lt hhead]
    exact .refl s
  | t :: ts, s, hs, hd, hc => by
    have hdt : depth < t.depth := hd t (by simp)
    have hd' : ∀ u ∈ ts, depth < u.depth := fun u hu => hd u (by simp [hu])
    have hc' : ∀ u ∈ ts, isViewCategory u.category := fun u hu => hc u (by simp [hu])
    have hstep := step_inChoice hs hdt (hc t (by simp))
    rw [run, descendBranches]
    cases hread : BranchLine.read? t with
    | none =>
      rw [hread] at hstep
      rw [hstep]
      exact run_inChoice ts s hs hd' hc'
    | some condition =>
      rw [hread] at hstep
      rw [hstep]
      obtain ⟨line, slot, cases, fallback, rest, h⟩ := hs
      have hshallow : ∀ f ∈ s.outline.head?, f.depth < t.depth := by simpa [outline, h] using hdt
      have hunder := run_inView (under t ts) (s.push t (.view (.branch condition) (headerNodes t)))
        (gathers_push _ _ _ _) (fun u hu => depth_of_mem_under hu)
        (fun u hu => hc' u (mem_of_mem_under hu))
      obtain ⟨s₂, h₂, hrun⟩ := run_openBranch hshallow hunder
      dsimp only
      rw [hrun _ (by omega)]
      have hchooses : s₂.Chooses depth := by
        unfold Chooses
        rw [h₂.1, addBranch, h]
        cases condition <;> exact ⟨_, _, _, _, _, rfl⟩
      exact (h₂.addBranches _).trans (run_inChoice (past t ts) s₂ hchooses
        (fun u hu => hd' u (mem_of_mem_past hu)) (fun u hu => hc' u (mem_of_mem_past hu)))
termination_by ts => ts.length
decreasing_by
  all_goals have := length_under_le t ts
  all_goals have := length_past_le t ts
  all_goals simp only [List.length_cons]
  all_goals omega

end

end Scope

/-- **The forest is read by recursive descent.** Where tokens hold nothing but control flow,
markup, assertions and text, the stack of open blocks builds the forest that recursion reads. -/
theorem view_buildManifest (ts : List Token) (c : Companions) (hd : ∀ t ∈ ts, 0 ≤ t.depth)
    (hc : ∀ t ∈ ts, t.category = .control ∨ t.category = .element ∨ t.category = .assertion ∨
      t.category = .expression) :
    (buildManifest ts c).view = descend [] ts := by
  have hcat : ∀ t ∈ ts, Scope.isViewCategory t.category := fun t ht => by
    rcases hc t ht with h | h | h | h <;> rw [h] <;> rfl
  have hdeep : ∀ t ∈ ts, rootDepth < t.depth := fun t ht => by
    have := hd t ht
    rw [rootDepth]
    omega
  obtain ⟨hframes, hview⟩ := Scope.run_inView ts Scope.start (.root rfl rfl) hdeep hcat
  -- at the end all blocks are closed, so that closing the root as well finds nothing to do
  have hclosed : (Scope.start.run ts).closeTo (-1) =
      (Scope.start.run ts).closeTo (rootDepth + 1) := by
    rw [← Scope.closeTo_closeTo (show -1 ≤ rootDepth + 1 by decide), Scope.closeTo_of_lt]
    rw [Scope.outline, hframes]
    rintro f ⟨⟩
  rw [buildManifest, Scope.finish, hclosed]
  exact hview

/-- A condition with an alternate, and a choice with two fallbacks. A text at the root and an
alternate without a condition before it find no place. -/
def shelf : List Token := [
  ⟨1, 0, .control, "if $a:".toList, "if $a:".toList, 0⟩,
  ⟨2, 4, .element, "p: one".toList, "    p: one".toList, 1⟩,
  ⟨3, 0, .control, "else:".toList, "else:".toList, 0⟩,
  ⟨4, 4, .expression, "two".toList, "    two".toList, 1⟩,
  ⟨5, 0, .control, "match $b:".toList, "match $b:".toList, 0⟩,
  ⟨6, 4, .control, "default: x".toList, "    default: x".toList, 1⟩,
  ⟨7, 4, .control, "case 1:".toList, "    case 1:".toList, 1⟩,
  ⟨8, 8, .control, "else: y".toList, "        else: y".toList, 2⟩,
  ⟨9, 12, .element, "p: z".toList, "            p: z".toList, 3⟩,
  ⟨10, 4, .control, "default: w".toList, "    default: w".toList, 1⟩,
  ⟨11, 0, .expression, "text".toList, "text".toList, 0⟩]

/-- The alternate goes to the condition, the line under the lone alternate to the case around it,
and the last fallback counts. -/
theorem view_buildManifest_shelf :
    (buildManifest shelf {}).view = descend [] shelf ∧
    (descend [] shelf).map ViewNode.line = [1, 5] ∧
    ((descend [] shelf).flatMap ViewNode.childLists).map (·.map ViewNode.line) =
      [[2], [4], [9], [10]] := by
  have h := view_buildManifest shelf {} (by decide) (by decide)
  refine ⟨h, ?_, ?_⟩
  · rw [← h]
    decide
  · rw [← h]
    decide

end ComponentLang
