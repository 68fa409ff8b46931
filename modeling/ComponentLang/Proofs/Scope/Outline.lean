import ComponentLang.Scope.Step
import Mathlib.Tactic.SplitIfs

/-!
# The outline of the open blocks

Most of what a line does happens inside the blocks that are open: they collect nodes, items,
declarations. What is left when this is disregarded is the outline.

* `Block.bare`, `Frame.bare` : a block as it was opened, without what it has collected;
* `Scope.outline` : the open blocks in that form, innermost first;
* `outline_publish`, `outline_closeTo` : a block that closes takes itself away and nothing else;
* `Scope.Extends t s s'` : the outline of `s'` is that of `s`, with at most one block more, which
  the token `t` has opened;
* `dispatch_extends` : no line does anything else to the outline.
-/

namespace ComponentLang

/-- The block as it was opened, without what it has collected. -/
def Block.bare : Block → Block
  | .view role _ => .view role []
  | .choice slot _ _ => .choice slot [] none
  | .logic owner _ => .logic owner []
  | .rule slot _ => .rule slot []
  | .head _ => .head []
  | block => block

/-- The frame as it was pushed, without what its block has collected. -/
def Frame.bare (f : Frame) : Frame := { f with block := f.block.bare }

@[simp] theorem Frame.bare_depth (f : Frame) : f.bare.depth = f.depth := rfl

namespace Scope

/-- The open blocks without what they have collected, innermost first. -/
def outline (s : Scope) : List Frame := s.frames.map Frame.bare

theorem length_outline (s : Scope) : s.outline.length = s.frames.length := List.length_map _

theorem outline_eq_nil {s : Scope} : s.outline = [] ↔ s.frames = [] := List.map_eq_nil_iff

theorem depths_outline (s : Scope) : s.outline.map Frame.depth = s.frames.map Frame.depth := by
  simp [outline, Function.comp_def]

/-! ## What blocks collect -/

@[simp] theorem outline_mapChildren (f : List ViewNode → List ViewNode) (s : Scope) :
    (s.mapChildren f).outline = s.outline := by
  unfold mapChildren
  split
  · next h => simp [outline, h, Frame.bare, Block.bare]
  · rfl

@[simp] theorem outline_append (node : ViewNode) (s : Scope) :
    (s.append node).outline = s.outline := outline_mapChildren _ _

@[simp] theorem outline_mapBody (f : List LogicItem → List LogicItem) (s : Scope) :
    (s.mapBody f).outline = s.outline := by
  unfold mapBody
  split
  · next h => simp [outline, h, Frame.bare, Block.bare]
  · rfl

@[simp] theorem outline_appendItem (item : LogicItem) (s : Scope) :
    (s.appendItem item).outline = s.outline := outline_mapBody _ _

@[simp] theorem outline_addBranch (branch : Branch ViewNode) (s : Scope) :
    (s.addBranch branch).outline = s.outline := by
  unfold addBranch
  split
  · next h =>
    dsimp only
    split_ifs <;> simp [outline, h, Frame.bare, Block.bare]
  · rfl

@[simp] theorem outline_push (s : Scope) (t : Token) (block : Block) :
    (s.push t block).outline = ⟨t.depth, t.line, block.bare⟩ :: s.outline := rfl

/-! ## Closing -/

theorem publish_node (d l : Int) (slot : Nat) (nodes : List ViewNode) (s : Scope) :
    publish ⟨d, l, .view (.node slot) nodes⟩ s =
      s.mapChildren (·.modify slot (ViewNode.setChildren nodes)) := rfl

theorem publish_alternate (d l : Int) (slot : Nat) (condition : Option Text)
    (nodes : List ViewNode) (s : Scope) :
    publish ⟨d, l, .view (.alternate slot condition) nodes⟩ s =
      s.mapChildren (·.modify slot (ViewNode.addAlternate ⟨condition, nodes, l⟩)) := rfl

theorem publish_choice (d l : Int) (slot : Nat) (cases : List (Branch ViewNode))
    (fallback : Option (Branch ViewNode)) (s : Scope) :
    publish ⟨d, l, .choice slot cases fallback⟩ s =
      s.mapChildren (·.modify slot (ViewNode.setBranches cases fallback)) := rfl

theorem outline_publishBody (owner : LogicOwner) (items : List LogicItem) (s : Scope) :
    (s.publishBody owner items).outline = s.outline := by
  cases owner with
  | nested slot => exact outline_mapBody _ _
  | _ => rfl

theorem outline_publishNodes (role : ViewRole) (nodes : List ViewNode) (line : Int) (s : Scope) :
    (s.publishNodes role nodes line).outline = s.outline := by
  cases role with
  | node slot => exact outline_mapChildren _ _
  | alternate slot condition => exact outline_mapChildren _ _
  | branch condition => exact outline_addBranch _ _

theorem outline_publish (frame : Frame) (s : Scope) : (publish frame s).outline = s.outline := by
  unfold publish
  split
  · exact outline_publishNodes _ _ _ _
  · exact outline_mapChildren _ _
  · exact outline_publishBody _ _ _
  all_goals rfl

theorem outline_closeTop (s : Scope) : s.closeTop.outline = s.outline.tail := by
  unfold closeTop
  split
  · next h => simp [outline, h]
  · next frame rest h =>
    rw [outline_publish]
    simp [outline, h]

theorem outline_closeMany (n : Nat) (s : Scope) : (closeMany n s).outline = s.outline.drop n := by
  induction n generalizing s with
  | zero => rfl
  | succ n ih => rw [closeMany, ih, outline_closeTop, List.drop_tail]

/-- What is kept when one block closes is kept when several do. -/
theorem closeTo_induction {I : Scope → Prop} (hclose : ∀ s, I s → I s.closeTop) (depth : Int)
    {s : Scope} (h : I s) : I (s.closeTo depth) := by
  unfold closeTo
  generalize (s.frames.takeWhile (depth ≤ ·.depth)).length = n
  induction n generalizing s with
  | zero => exact h
  | succ n ih => exact ih (hclose s h)

/-- The number of blocks that a line of the given depth closes. -/
theorem closing_count (depth : Int) (s : Scope) :
    (s.frames.takeWhile (depth ≤ ·.depth)).length =
      (s.outline.takeWhile (depth ≤ ·.depth)).length := by
  rw [outline, List.takeWhile_map, List.length_map]
  rfl

theorem outline_closeTo (depth : Int) (s : Scope) :
    (s.closeTo depth).outline = s.outline.dropWhile (depth ≤ ·.depth) := by
  rw [closeTo, outline_closeMany, closing_count]
  generalize s.outline = frames
  induction frames with
  | nil => rfl
  | cons f rest ih =>
    by_cases hf : depth ≤ f.depth
    · simpa [hf] using ih
    · simp [hf]

/-! ## Lines -/

/-- The outline of `s'` is that of `s`, except that the token `t` may have opened one block. -/
def Extends (t : Token) (s s' : Scope) : Prop :=
  s'.outline = s.outline ∨ ∃ block, s'.outline = ⟨t.depth, t.line, block⟩ :: s.outline

theorem Extends.of_eq {t : Token} {s s' : Scope} (h : s'.outline = s.outline) :
    Extends t s s' := Or.inl h

theorem Extends.push {t : Token} {s s' : Scope} (block : Block) (h : s'.outline = s.outline) :
    Extends t s (s'.push t block) := Or.inr ⟨block.bare, by rw [outline_push, h]⟩

theorem logicLine_extends (s : Scope) (t : Token) : Extends t s (s.logicLine t) := by
  unfold logicLine
  split_ifs
  · exact .push _ (outline_appendItem _ _)
  · exact .of_eq (outline_appendItem _ _)
  · exact .of_eq (outline_appendItem _ _)

theorem outline_headLine (s : Scope) (t : Token) : (s.headLine t).outline = s.outline := by
  unfold headLine
  split
  · next h => simp [outline, h, Frame.bare, Block.bare]
  · rfl

theorem headLine_extends (s : Scope) (t : Token) : Extends t s (s.headLine t) :=
  .of_eq (outline_headLine s t)

theorem styleLine_extends {s s' : Scope} {t : Token} (h : s.styleLine t = .ok s') :
    Extends t s s' := by
  unfold styleLine at h
  split_ifs at h
  · cases h
    exact .push _ rfl
  · split at h
    · next hf =>
      cases h
      exact .of_eq (by simp [outline, hf, Frame.bare, Block.bare])
    · cases h

theorem openNode_extends (s : Scope) (t : Token) (node : ViewNode) (nodes : List ViewNode) :
    Extends t s (s.openNode t node nodes) := .push _ (outline_append _ _)

theorem controlLine_extends {s s' : Scope} {t : Token} (h : s.controlLine t = .ok s') :
    Extends t s s' := by
  unfold controlLine at h
  split at h
  · cases h
    exact openNode_extends _ _ _ _
  · cases h
    exact openNode_extends _ _ _ _
  · cases h
    exact .push _ (outline_append _ _)
  · unfold openAlternate at h
    split_ifs at h
    cases h
    exact .push _ rfl
  · cases h

theorem branchLine_extends {s s' : Scope} {t : Token} (h : s.branchLine t = .ok s') :
    Extends t s s' := by
  unfold branchLine at h
  dsimp only at h
  generalize (if t.category = .control then _ else none : Option CaseHeader) = header at h
  cases header with
  | none => cases h
  | some header =>
    cases header with
    | case condition =>
      cases h
      exact .push _ rfl
    | fallback =>
      cases h
      exact .push _ rfl

theorem markupLine_extends (s : Scope) (t : Token) : Extends t s (s.markupLine t) := by
  unfold markupLine
  split
  · exact .of_eq (outline_append _ _)
  · next e _ =>
    have href : ((e.ref.map s.registerRef).getD s).outline = s.outline := by
      cases e.ref <;> rfl
    dsimp only
    split_ifs
    · exact .push _ (by rw [outline_append, href])
    · exact .of_eq (by rw [outline_append, href])

theorem nodeLine_extends {s s' : Scope} {t : Token} (h : s.nodeLine t = .ok s') :
    Extends t s s' := by
  unfold nodeLine at h
  split_ifs at h
  · exact controlLine_extends h
  · cases h
    exact markupLine_extends s t
  · cases h
    exact .of_eq (outline_append _ _)

theorem place_extends {s s' : Scope} {t : Token} (h : s.place t = .ok s') : Extends t s s' := by
  unfold place at h
  split at h
  · exact styleLine_extends h
  · exact styleLine_extends h
  · exact branchLine_extends h
  · cases h
  · exact nodeLine_extends h

theorem declare_extends {s s' : Scope} {t : Token} (h : s.declare t = .ok s') :
    Extends t s s' := by
  unfold declare at h
  split at h
  · cases h
    exact .of_eq rfl
  · cases h

theorem route_extends {s s' : Scope} {t : Token} (h : s.route t = .ok s') : Extends t s s' := by
  unfold route at h
  split at h
  iterate 6 exact declare_extends h
  · unfold openFunction at h
    split at h
    · cases h
    · cases h
      exact .push _ rfl
  · cases h
    exact .push _ rfl
  · unfold openWatcher at h
    split at h
    · cases h
    · cases h
      exact .push _ rfl
  · cases h
    exact .push _ rfl
  · cases h
    exact .push _ rfl
  · cases h
    exact .push _ rfl
  · unfold openPersona at h
    split at h
    · cases h
    · cases h
      exact .push _ rfl
  · cases h
    exact .push _ rfl
  all_goals exact place_extends h

/-- A line that finds a place opens one block at most, and leaves the others open. -/
theorem dispatch_extends {s s' : Scope} {t : Token} (h : s.dispatch t = .ok s') :
    Extends t s s' := by
  unfold dispatch at h
  split at h
  · cases h
    exact logicLine_extends s t
  · cases h
    exact logicLine_extends s t
  · cases h
    exact headLine_extends s t
  · exact route_extends h

theorem step_extends (s : Scope) (t : Token) :
    Extends t (s.closeTo t.depth) (s.step t).1 := by
  unfold step
  split
  · next h => exact dispatch_extends h
  · exact .of_eq rfl

theorem run_append (s : Scope) (ts us : List Token) : s.run (ts ++ us) = (s.run ts).run us := by
  induction ts generalizing s with
  | nil => rfl
  | cons t ts ih => exact ih _

theorem runNotices_append (s : Scope) (ts us : List Token) :
    s.runNotices (ts ++ us) = s.runNotices ts ++ (s.run ts).runNotices us := by
  induction ts generalizing s with
  | nil => rfl
  | cons t ts ih => rw [List.cons_append, runNotices, runNotices, run, ih, List.append_assoc]

end Scope

end ComponentLang
