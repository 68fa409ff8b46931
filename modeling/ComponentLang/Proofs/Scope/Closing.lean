import ComponentLang.Proofs.Scope.Outline
import Mathlib.Data.List.TakeWhile
import Mathlib.Tactic.Conv

/-!
# Closing blocks in stages

* `closeTo_of_lt`, `closeTo_of_le` : closing stops at a block that is not deep enough, and goes on
  after one that is;
* `closeTo_closeTo` : closing less first changes nothing;
* `closeTo_run_eq` : nor does closing blocks that the next token would close anyway;
* `SameView` : two scopes with the same open blocks and the same forest;
* `run_block` : the tokens under a header work on its block alone. When they are through, the block
  closes over what they have left in it.
-/

namespace ComponentLang

namespace Scope

theorem closeTo_of_lt {depth : Int} {s : Scope} (h : ∀ f ∈ s.outline.head?, f.depth < depth) :
    s.closeTo depth = s := by
  have hnone : s.frames.takeWhile (depth ≤ ·.depth) = [] := by
    cases hs : s.frames with
    | nil => rfl
    | cons f rest =>
      have hf : f.depth < depth := h f.bare (by simp [outline, hs])
      have hf : ¬ depth ≤ f.depth := by omega
      simp [hf]
  rw [closeTo, hnone]
  rfl

theorem closeTo_of_le {depth : Int} {s : Scope} {f : Frame} {rest : List Frame}
    (hs : s.frames = f :: rest) (hf : depth ≤ f.depth) :
    s.closeTo depth = s.closeTop.closeTo depth := by
  have hcount : (s.frames.takeWhile (depth ≤ ·.depth)).length =
      (s.closeTop.frames.takeWhile (depth ≤ ·.depth)).length + 1 := by
    rw [closing_count, closing_count, outline_closeTop]
    simp [outline, hs, hf]
  rw [closeTo, hcount, closeMany]
  rfl

theorem closeTo_closeTo {a b : Int} (h : a ≤ b) (s : Scope) :
    (s.closeTo b).closeTo a = s.closeTo a := by
  generalize hn : s.frames.length = n
  induction n generalizing s with
  | zero =>
    have hb : s.closeTo b = s := closeTo_of_lt (by simp [outline, List.length_eq_zero_iff.1 hn])
    rw [hb]
  | succ n ih =>
    obtain ⟨f, rest, hs⟩ := List.exists_cons_of_length_eq_add_one hn
    by_cases hf : b ≤ f.depth
    · rw [closeTo_of_le hs hf, closeTo_of_le hs (show a ≤ f.depth by omega)]
      apply ih
      rw [← length_outline, outline_closeTop, List.length_tail, length_outline]
      omega
    · have hb : s.closeTo b = s := closeTo_of_lt (by simpa [outline, hs] using hf)
      rw [hb]

/-- A token that is no deeper than `depth` closes by itself what closing to `depth` would. -/
theorem step_closeTo {depth : Int} {t : Token} (h : t.depth ≤ depth) (s : Scope) :
    (s.closeTo depth).step t = s.step t := by
  rw [step, closeTo_closeTo h]
  rfl

theorem closeTo_run_eq {depth e : Int} {ts : List Token} (he : e ≤ depth)
    (hts : ∀ t ∈ ts.head?, t.depth ≤ depth) (s : Scope) :
    (s.run ts).closeTo e = ((s.closeTo depth).run ts).closeTo e := by
  cases ts with
  | nil => exact (closeTo_closeTo he s).symm
  | cons t ts =>
    rw [run, run, step_closeTo (hts t rfl)]

/-! ## Scopes with the same view -/

/-- The same blocks are open, and the forests of the manifests are equal. -/
def SameView (s s' : Scope) : Prop :=
  s'.frames = s.frames ∧ s'.manifest.view = s.manifest.view

theorem SameView.refl (s : Scope) : SameView s s := ⟨rfl, rfl⟩

theorem SameView.trans {s s' s'' : Scope} (h : SameView s s') (h' : SameView s' s'') :
    SameView s s'' := ⟨h'.1.trans h.1, h'.2.trans h.2⟩

theorem SameView.children {s s' : Scope} (h : SameView s s') : s'.children = s.children := by
  unfold Scope.children
  rw [h.1, h.2]

theorem SameView.mapChildren {s s' : Scope} (h : SameView s s')
    (f : List ViewNode → List ViewNode) : SameView (s.mapChildren f) (s'.mapChildren f) := by
  unfold Scope.mapChildren
  rw [h.1, h.2]
  split
  · exact ⟨rfl, h.2⟩
  · exact ⟨rfl, rfl⟩

theorem SameView.append {s s' : Scope} (h : SameView s s') (node : ViewNode) :
    SameView (s.append node) (s'.append node) := h.mapChildren _

theorem SameView.addBranch {s s' : Scope} (h : SameView s s') (branch : Branch ViewNode) :
    SameView (s.addBranch branch) (s'.addBranch branch) := by
  unfold Scope.addBranch
  rw [h.1]
  split
  · exact ⟨rfl, h.2⟩
  · exact h

theorem SameView.publishBody {s s' : Scope} (h : SameView s s') (owner : LogicOwner)
    (items : List LogicItem) :
    SameView (s.publishBody owner items) (s'.publishBody owner items) := by
  cases owner with
  | nested slot =>
    unfold Scope.publishBody Scope.mapBody
    dsimp only
    rw [h.1]
    split
    · exact ⟨rfl, h.2⟩
    · exact ⟨rfl, h.2⟩
  | _ => exact h

theorem SameView.publish {s s' : Scope} (h : SameView s s') (frame : Frame) :
    SameView (Scope.publish frame s) (Scope.publish frame s') := by
  unfold Scope.publish
  split
  · next role nodes _ =>
    cases role with
    | node slot => exact h.mapChildren _
    | alternate slot condition => exact h.mapChildren _
    | branch condition => exact h.addBranch _
  · exact h.mapChildren _
  · exact h.publishBody _ _
  all_goals exact h

/-! ## The tokens under a header -/

/-- The tokens right after a header that are deeper than it. -/
def under (t : Token) (ts : List Token) : List Token := ts.takeWhile (t.depth < ·.depth)

/-- The tokens from the first one on that is not deeper than a header before them. -/
def past (t : Token) (ts : List Token) : List Token := ts.dropWhile (t.depth < ·.depth)

theorem under_append_past (t : Token) (ts : List Token) : under t ts ++ past t ts = ts :=
  List.takeWhile_append_dropWhile

theorem depth_of_mem_under {t u : Token} {ts : List Token} (h : u ∈ under t ts) :
    t.depth < u.depth := by
  simpa using List.mem_takeWhile_imp h

theorem depth_of_mem_head_past {t u : Token} {ts : List Token} (h : u ∈ (past t ts).head?) :
    u.depth ≤ t.depth := by
  have := List.head?_dropWhile_not (fun u : Token => decide (t.depth < u.depth)) ts
  rw [past] at h
  rw [Option.mem_def.1 h] at this
  simpa using this

theorem mem_of_mem_under {t u : Token} {ts : List Token} (h : u ∈ under t ts) : u ∈ ts :=
  (List.takeWhile_subset _) h

theorem mem_of_mem_past {t u : Token} {ts : List Token} (h : u ∈ past t ts) : u ∈ ts :=
  (List.dropWhile_subset _) h

theorem length_under_le (t : Token) (ts : List Token) : (under t ts).length ≤ ts.length :=
  (List.takeWhile_sublist _).length_le

theorem length_past_le (t : Token) (ts : List Token) : (past t ts).length ≤ ts.length :=
  (List.dropWhile_sublist _).length_le

/-- If the tokens under a header turn the block that it has opened on `s` into `block`, then the
tokens past them start from `s` and what this block leaves behind. -/
theorem run_block {s s₁ : Scope} {t : Token} {ts : List Token} {block : Block}
    (hs : ∀ f ∈ s.outline.head?, f.depth < t.depth)
    (hunder : SameView (s.push t block) ((s₁.run (under t ts)).closeTo (t.depth + 1))) :
    ∃ s₂, SameView (publish ⟨t.depth, t.line, block⟩ s) s₂ ∧
      ∀ e ≤ t.depth, (s₁.run ts).closeTo e = (s₂.run (past t ts)).closeTo e := by
  refine ⟨(s₁.run (under t ts)).closeTo t.depth, ?_, ?_⟩
  · have htop : SameView (publish ⟨t.depth, t.line, block⟩ s)
        ((s₁.run (under t ts)).closeTo (t.depth + 1)).closeTop := by
      have hrest : SameView s
          { (s₁.run (under t ts)).closeTo (t.depth + 1) with frames := s.frames } :=
        ⟨rfl, hunder.2⟩
      unfold closeTop
      rw [hunder.1, push]
      exact hrest.publish _
    rw [← closeTo_closeTo (show t.depth ≤ t.depth + 1 by omega), closeTo_of_le hunder.1 (Int.le_refl _),
      closeTo_of_lt]
    · exact htop
    · -- what is left is as open as `s` was, so nothing more closes
      rwa [outline_closeTop, outline, hunder.1]
  · intro e he
    conv_lhs => rw [← under_append_past t ts]
    rw [run_append, closeTo_run_eq he fun u hu => depth_of_mem_head_past hu]

end Scope

end ComponentLang
