import ComponentLang.Proofs.Depth.Dedent
import Mathlib.Data.List.Chain

/-!
# Depths of lines indented by their depths

Lines that are indented anew by their depths keep these depths, however unevenly they were indented
before, and none of them goes back to a width at which nothing is open.

* `isChain_assignFrom` : a line is at most one block deeper than the line before it;
* `assignFrom_canonical` : while the widths `stack` are open at the old lines, the widths
  `ladder unit stack.length` are open at the new ones;
* `noticesFrom_canonical` : so every new line finds its width open, or opens it;
* `assign_canonical` : the new layout is a fixed point.
-/

namespace ComponentLang.Depth

theorem isChain_assignFrom (stack : List Int) (ts : List Token) :
    List.IsChain (fun d e : Int => 0 ≤ e ∧ e ≤ d + 1)
      (stack.length :: (assignFrom stack ts).map Token.depth) := by
  induction ts generalizing stack with
  | nil => exact .singleton _
  | cons t ts ih =>
    have hdepth := length_settle_le stack t.width
    rw [assignFrom, List.map_cons]
    refine .cons_cons ⟨?_, ?_⟩ (ih _)
    · dsimp only
      omega
    · dsimp only
      omega

/-! ## The open widths of the two layouts -/

theorem nearest_ladder (unit : Int) (d : Nat) : nearest (ladder unit d) = d * unit := by
  cases d with
  | zero => simp [ladder, nearest]
  | succ d => rfl

section

variable {unit : Int}

/-- A line that is indented by its depth finds the blocks around it open, and no others. -/
theorem settle_ladder_settle (hu : 0 < unit) (stack : List Int) (w : Int) :
    settle (ladder unit stack.length) ((settle stack w).length * unit) =
      ladder unit (settle stack w).length :=
  settle_ladder hu (length_settle_le stack w)

/-- Lines indented by their depths get these depths again. -/
theorem assignFrom_canonical (hu : 0 < unit) (stack : List Int) (ts : List Token) :
    assignFrom (ladder unit stack.length) (canonical unit (assignFrom stack ts)) =
      canonical unit (assignFrom stack ts) := by
  induction ts generalizing stack with
  | nil => rfl
  | cons t ts ih =>
    have hopen := settle_ladder_settle hu stack t.width
    have hrest := ih (settle stack t.width)
    rw [canonical] at hrest
    rw [assignFrom, canonical, List.map_cons, assignFrom]
    dsimp only
    rw [hopen, length_ladder, hrest]

/-- Lines indented by their depths have no notices. -/
theorem noticesFrom_canonical (hu : 0 < unit) (stack : List Int) (ts : List Token) :
    noticesFrom (ladder unit stack.length) (canonical unit (assignFrom stack ts)) = [] := by
  induction ts generalizing stack with
  | nil => rfl
  | cons t ts ih =>
    have hopen := settle_ladder_settle hu stack t.width
    have hrest := ih (settle stack t.width)
    rw [canonical] at hrest
    rw [assignFrom, canonical, List.map_cons, noticesFrom, notice?]
    dsimp only
    rw [hopen, hrest, nearest_ladder, nearest_ladder]
    simp

end

/-- **Indentation by depth is a fixed point.** Depths are not negative, and a line is at most one
block deeper than the line before it, the first at most at depth one. If every line is indented by its
depth, then the depths assigned anew are the same, and there are no notices. -/
theorem assign_canonical (ts : List Token) {unit : Int} (hu : 1 ≤ unit) :
    List.IsChain (fun d e : Int => 0 ≤ e ∧ e ≤ d + 1) (0 :: (assign ts).map Token.depth) ∧
    assign (canonical unit (assign ts)) = canonical unit (assign ts) ∧
    (assign (canonical unit (assign ts))).map Token.depth = (assign ts).map Token.depth ∧
    notices (canonical unit (assign ts)) = [] := by
  have hpos : 0 < unit := by omega
  have hfixed : assign (canonical unit (assign ts)) = canonical unit (assign ts) :=
    assignFrom_canonical hpos [] ts
  have hdepths : (canonical unit (assign ts)).map Token.depth = (assign ts).map Token.depth := by
    rw [canonical, List.map_map]
    rfl
  refine ⟨isChain_assignFrom [] ts, hfixed, ?_, noticesFrom_canonical hpos [] ts⟩
  rw [hfixed, hdepths]

/-- Lines that go back to a width at which nothing is open get a layout without such lines. -/
theorem assign_canonical_sag :
    (1 : Int) ≤ 3 ∧ notices sag ≠ [] ∧
    (canonical 3 (assign sag)).map Token.width = [3, 0, 3] ∧
    (assign (canonical 3 (assign sag))).map Token.depth = [1, 0, 1] ∧
    notices (canonical 3 (assign sag)) = [] := by
  obtain ⟨_, _, hdepths, hnone⟩ := assign_canonical sag (show (1 : Int) ≤ 3 by decide)
  refine ⟨by decide, ?_, ?_, hdepths.trans ?_, hnone⟩
  · decide +kernel
  · decide +kernel
  · decide +kernel

end ComponentLang.Depth
