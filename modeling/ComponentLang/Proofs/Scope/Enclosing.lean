import ComponentLang.Proofs.Scope.Outline
import Mathlib.Data.List.Basic
import Mathlib.Data.Nat.Find
import Mathlib.Logic.ExistsUnique

/-!
# Which blocks are open

The blocks that a token finds open are told by the depths alone.

* `depthAt ts i` : the depth of the token at position `i`; the end is as deep as the root;
* `Scope.before ts i` : the scope that the first `i` tokens leave behind;
* `Scope.around ts i` : the scope that the token at `i` finds, once the blocks that it is not inside
  of are closed. At the end these are all blocks;
* `Scope.around_rec`, `around_induction` : what closing and every token keep is found around every
  token, with its position or without;
* `Scope.pushedAt`, `Scope.closedAt` : what the token at a position opens and closes;
* `Encloses ts j i` : the token at `i` is deeper than the token at `j`, and so is all between;
* `Ends ts j i` : the position `i` is the first after `j` that is not deeper;
* `stack_around_eq` : what is open around `i` was opened by the tokens that enclose `i`, in order,
  and each block closes at the one position that ends it.
-/

namespace ComponentLang

/-- The depth of the root, around which there is no block. -/
def rootDepth : Int := -1

/-- The depth of the token at a position; the end of the tokens is as deep as the root. -/
def depthAt (ts : List Token) (i : Nat) : Int := (ts[i]?.map Token.depth).getD rootDepth

theorem depthAt_of_getElem? {ts : List Token} {i : Nat} {t : Token} (h : ts[i]? = some t) :
    depthAt ts i = t.depth := by
  simp [depthAt, h]

theorem depthAt_length (ts : List Token) : depthAt ts ts.length = rootDepth := by
  simp [depthAt]

theorem depthAt_nonneg {ts : List Token} (hd : ∀ t ∈ ts, 0 ≤ t.depth) {i : Nat}
    (hi : i < ts.length) : 0 ≤ depthAt ts i := by
  rw [depthAt_of_getElem? (List.getElem?_eq_getElem hi)]
  exact hd _ (List.getElem_mem hi)

/-- All tokens between the positions `j` and `i` are deeper than the token at `j`. -/
def Covers (ts : List Token) (j i : Nat) : Prop := ∀ k < i, j < k → depthAt ts j < depthAt ts k

instance (ts : List Token) (j i : Nat) : Decidable (Covers ts j i) :=
  inferInstanceAs (Decidable (∀ k < i, _))

/-- The token at `i` and all tokens between `j` and `i` are deeper than the token at `j`. -/
def Encloses (ts : List Token) (j i : Nat) : Prop := depthAt ts j < depthAt ts i ∧ Covers ts j i

instance (ts : List Token) (j i : Nat) : Decidable (Encloses ts j i) :=
  inferInstanceAs (Decidable (_ ∧ _))

/-- The position `i` is the first one after `j` that is not deeper than the token at `j`. -/
def Ends (ts : List Token) (j i : Nat) : Prop :=
  (j < i ∧ depthAt ts i ≤ depthAt ts j) ∧ Covers ts j i

instance (ts : List Token) (j i : Nat) : Decidable (Ends ts j i) :=
  inferInstanceAs (Decidable (_ ∧ _))

theorem covers_succ {ts : List Token} {j i : Nat} (h : j < i) :
    Covers ts j (i + 1) ↔ Encloses ts j i := by
  constructor
  · intro hc
    exact ⟨hc i (by omega) h, fun k hk hj => hc k (by omega) hj⟩
  · rintro ⟨hi, hc⟩ k hk hj
    rcases Nat.lt_succ_iff_lt_or_eq.1 hk with hk | rfl
    · exact hc k hk hj
    · exact hi

theorem covers_self (ts : List Token) (i : Nat) : Covers ts i (i + 1) :=
  fun k hk hi => by omega

/-- Every token is ended at exactly one position, the end included. -/
theorem existsUnique_ends {ts : List Token} (hd : ∀ t ∈ ts, 0 ≤ t.depth) {j : Nat}
    (hj : j < ts.length) : ∃! i, i ≤ ts.length ∧ Ends ts j i := by
  have hend : ∃ i, j < i ∧ depthAt ts i ≤ depthAt ts j := by
    refine ⟨ts.length, hj, ?_⟩
    have := depthAt_nonneg hd hj
    rw [depthAt_length, rootDepth]
    omega
  have hcov : Covers ts j (Nat.find hend) := fun k hk hjk => by
    have := Nat.find_min hend hk
    omega
  refine ⟨Nat.find hend, ⟨?_, Nat.find_spec hend, hcov⟩, ?_⟩
  · refine Nat.find_min' hend ⟨hj, ?_⟩
    have := depthAt_nonneg hd hj
    rw [depthAt_length, rootDepth]
    omega
  · rintro i ⟨-, hi, hc⟩
    refine le_antisymm (not_lt.1 fun hlt => ?_) (Nat.find_min' hend hi)
    have := hc _ hlt (Nat.find_spec hend).1
    have := (Nat.find_spec hend).2
    omega

/-! ## A run, position by position -/

theorem filterMap_range_succ {α : Type} (f : Nat → Option α) (n : Nat) :
    (List.range (n + 1)).filterMap f = (List.range n).filterMap f ++ (f n).toList := by
  rw [List.range_succ, List.filterMap_append]
  rfl

namespace Scope

/-- The scope that the first `i` tokens leave behind. -/
def before (ts : List Token) (i : Nat) : Scope := start.run (ts.take i)

/-- The scope that the token at `i` finds once the blocks that it is not inside of are closed. At
the end this is the scope in which all blocks are closed. -/
def around (ts : List Token) (i : Nat) : Scope := (before ts i).closeTo (depthAt ts i)

theorem before_succ {ts : List Token} {i : Nat} {t : Token} (h : ts[i]? = some t) :
    before ts (i + 1) = ((before ts i).step t).1 := by
  rw [before, List.take_add_one, h, Option.toList, run_append]
  rfl

theorem around_eq {ts : List Token} {i : Nat} {t : Token} (h : ts[i]? = some t) :
    around ts i = (before ts i).closeTo t.depth := by
  rw [around, depthAt_of_getElem? h]

/-- What is said of a position and a scope is found around every token, and at the end, if closing a
block keeps it and each token leads from its position to the next one. -/
theorem around_rec {P : Nat → Scope → Prop} {ts : List Token} (hstart : P 0 start)
    (hclose : ∀ i s, P i s → P i s.closeTop)
    (hline : ∀ i t, ts[i]? = some t → P i (around ts i) → P (i + 1) (before ts (i + 1)))
    {i : Nat} (hi : i ≤ ts.length) : P i (around ts i) := by
  induction i with
  | zero => exact closeTo_induction (hclose 0) _ hstart
  | succ i ih =>
    have ht := List.getElem?_eq_getElem (show i < ts.length by omega)
    exact closeTo_induction (hclose (i + 1)) _ (hline i _ ht (ih (by omega)))

/-- What is kept when a block closes, and by every token in the scope that it finds, is found around
every token, and at the end. -/
theorem around_induction {I : Scope → Prop} {ts : List Token} (hstart : I start)
    (hclose : ∀ s, I s → I s.closeTop)
    (hdispatch : ∀ i t s', ts[i]? = some t → I (around ts i) → (around ts i).dispatch t = .ok s' → I s')
    {i : Nat} (hi : i ≤ ts.length) : I (around ts i) := by
  refine around_rec (P := fun _ => I) hstart (fun _ => hclose) (fun i t ht haround => ?_) hi
  rw [before_succ ht, step, ← around_eq ht]
  split
  · next hline => exact hdispatch i t _ ht haround hline
  · exact haround

theorem buildManifest_eq_around (ts : List Token) (c : Companions) :
    buildManifest ts c = (around ts ts.length).manifest.withCompanions c := by
  rw [around, depthAt_length, before, List.take_length]
  rfl

/-- The blocks that the token at `i` opens, as they were opened. -/
def pushedAt (ts : List Token) (i : Nat) : List Frame :=
  (before ts (i + 1)).outline.take
    ((before ts (i + 1)).frames.length - (around ts i).frames.length)

/-- The blocks that are handed on when the innermost `n` close, in this order and with all that
they have collected. -/
def closings : Nat → Scope → List Frame
  | 0, _ => []
  | n + 1, s => s.frames.head?.toList ++ closings n s.closeTop

/-- The blocks that the token at `i`, or the end of the tokens, closes. -/
def closedAt (ts : List Token) (i : Nat) : List Frame :=
  closings ((before ts i).frames.takeWhile (depthAt ts i ≤ ·.depth)).length (before ts i)

/-- All that is open, the root at the bottom. -/
def stack (s : Scope) : List Frame := ⟨rootDepth, 0, .forest⟩ :: s.frames.reverse

theorem bare_closings (n : Nat) (s : Scope) :
    (closings n s).map Frame.bare = s.outline.take n := by
  induction n generalizing s with
  | zero => rfl
  | succ n ih =>
    rw [closings, List.map_append, ih, outline_closeTop]
    cases h : s.frames with
    | nil => simp [outline, h]
    | cons f rest => simp [outline, h]

theorem bare_closedAt (ts : List Token) (i : Nat) :
    (closedAt ts i).map Frame.bare =
      (before ts i).outline.takeWhile (depthAt ts i ≤ ·.depth) := by
  rw [closedAt, bare_closings, closing_count]
  exact (List.prefix_iff_eq_take.1 (List.takeWhile_prefix _)).symm

theorem outline_around (ts : List Token) (i : Nat) :
    (around ts i).outline = (before ts i).outline.dropWhile (depthAt ts i ≤ ·.depth) :=
  outline_closeTo _ _

/-- A token opens one block at most, on top of those around it. -/
theorem pushedAt_cases {ts : List Token} {i : Nat} {t : Token} (h : ts[i]? = some t) :
    (before ts (i + 1)).outline = pushedAt ts i ++ (around ts i).outline ∧
      (pushedAt ts i = [] ∨ ∃ block, pushedAt ts i = [⟨t.depth, t.line, block⟩]) := by
  have hext := step_extends (before ts i) t
  rw [← around_eq h, ← before_succ h] at hext
  rw [pushedAt, ← length_outline, ← length_outline]
  rcases hext with heq | ⟨block, heq⟩
  · simp [heq]
  · simp [heq]

theorem depth_of_mem_pushedAt {ts : List Token} {i : Nat} (hi : i < ts.length) {f : Frame}
    (hf : f ∈ pushedAt ts i) : f.depth = depthAt ts i := by
  have ht := List.getElem?_eq_getElem hi
  rw [depthAt_of_getElem? ht]
  rcases (pushedAt_cases ht).2 with h | ⟨block, h⟩ <;> rw [h] at hf
  · cases hf
  · rw [List.mem_singleton.1 hf]

/-! ## Sorted lists of blocks -/

theorem dropWhile_eq_filter {frames : List Frame} (h : frames.Pairwise (·.depth > ·.depth))
    (d : Int) : frames.dropWhile (d ≤ ·.depth) = frames.filter (·.depth < d) := by
  induction h with
  | nil => rfl
  | @cons f rest hf _ ih =>
    by_cases hd : d ≤ f.depth
    · have hlt : ¬ f.depth < d := by omega
      simp [hd, ih, hlt]
    · have hall : ∀ g ∈ rest, g.depth < d := fun g hg => by
        have := hf g hg
        omega
      simp only [hd, decide_false, List.dropWhile_cons]
      rw [List.filter_eq_self.2]
      · simp
      · intro g hg
        rcases List.mem_cons.1 hg with rfl | hg
        · simpa using hd
        · simpa using hall g hg

theorem takeWhile_eq_filter {frames : List Frame} (h : frames.Pairwise (·.depth > ·.depth))
    (d : Int) : frames.takeWhile (d ≤ ·.depth) = frames.filter (d ≤ ·.depth) := by
  induction h with
  | nil => rfl
  | @cons f rest hf _ ih =>
    by_cases hd : d ≤ f.depth
    · simp [hd, ih]
    · have hnone : rest.filter (d ≤ ·.depth) = [] := by
        rw [List.filter_eq_nil_iff]
        intro g hg
        have := hf g hg
        simp only [decide_eq_true_eq]
        omega
      simp [hd, hnone]

/-- Blocks are selected by their depth as the positions are at which they were opened. -/
theorem filter_flatMap_pushedAt {ts : List Token} {js : List Nat} (hjs : ∀ j ∈ js, j < ts.length)
    (p : Int → Bool) :
    (js.flatMap (pushedAt ts)).filter (fun f => p f.depth) =
      (js.filter fun j => p (depthAt ts j)).flatMap (pushedAt ts) := by
  induction js with
  | nil => rfl
  | cons j js ih =>
    have hj : ∀ f ∈ pushedAt ts j, f.depth = depthAt ts j :=
      fun f hf => depth_of_mem_pushedAt (hjs j (by simp)) hf
    rw [List.flatMap_cons, List.filter_append, ih fun k hk => hjs k (by simp [hk]),
      List.filter_cons]
    by_cases hp : p (depthAt ts j) = true
    · rw [if_pos hp, List.flatMap_cons, List.filter_eq_self.2]
      intro f hf
      rw [hj f hf, hp]
    · rw [if_neg hp, List.filter_eq_nil_iff.2, List.nil_append]
      intro f hf
      rwa [hj f hf]

/-! ## The open blocks -/

/-- What is open before `i` was opened by the tokens under which all tokens up to there stand, and
is deeper the further inside it is. -/
def Told (ts : List Token) (i : Nat) : Prop :=
  (before ts i).outline.reverse = ((List.range i).filter (Covers ts · i)).flatMap (pushedAt ts) ∧
    (before ts i).outline.Pairwise (·.depth > ·.depth)

/-- Of the open blocks, those of certain depths were opened by the tokens of these depths. -/
theorem Told.filter {ts : List Token} {i : Nat} (h : Told ts i) (hi : i ≤ ts.length)
    (p : Int → Bool) {Q : Nat → Prop} [DecidablePred Q]
    (hQ : ∀ j < i, Q j ↔ p (depthAt ts j) ∧ Covers ts j i) :
    ((before ts i).outline.filter fun f => p f.depth).reverse =
      ((List.range i).filter (Q ·)).flatMap (pushedAt ts) := by
  have hjs : ∀ j ∈ (List.range i).filter (Covers ts · i), j < ts.length := fun j hj => by
    have := List.mem_range.1 (List.mem_filter.1 hj).1
    omega
  rw [← List.filter_reverse, h.1, filter_flatMap_pushedAt hjs, List.filter_filter]
  congr 1
  refine List.filter_congr fun j hj => ?_
  rw [Bool.eq_iff_iff, Bool.and_eq_true, decide_eq_true_eq, decide_eq_true_eq]
  exact (hQ j (List.mem_range.1 hj)).symm

theorem Told.outline_around {ts : List Token} {i : Nat} (h : Told ts i) (hi : i ≤ ts.length) :
    (around ts i).outline.reverse =
      ((List.range i).filter (Encloses ts · i)).flatMap (pushedAt ts) := by
  rw [Scope.outline_around, dropWhile_eq_filter h.2]
  refine h.filter hi (· < depthAt ts i) fun j _ => ?_
  rw [decide_eq_true_eq, Encloses]

theorem Told.closedAt {ts : List Token} {i : Nat} (h : Told ts i) (hi : i ≤ ts.length) :
    ((closedAt ts i).map Frame.bare).reverse =
      ((List.range i).filter (Ends ts · i)).flatMap (pushedAt ts) := by
  rw [bare_closedAt, takeWhile_eq_filter h.2]
  refine h.filter hi (depthAt ts i ≤ ·) fun j hj => ?_
  rw [decide_eq_true_eq, Ends, and_iff_right hj]

theorem Told.step {ts : List Token} {i : Nat} (h : Told ts i) (hi : i < ts.length) :
    Told ts (i + 1) := by
  obtain ⟨hcons, hone⟩ := pushedAt_cases (List.getElem?_eq_getElem hi)
  -- open after the token is what was open around it, and then its own block if it opens one
  constructor
  · have hrev : (pushedAt ts i).reverse = pushedAt ts i := by
      rcases hone with h | ⟨block, h⟩ <;> rw [h] <;> rfl
    rw [hcons, List.reverse_append, hrev, h.outline_around (by omega), List.range_succ,
      List.filter_append, List.flatMap_append]
    congr 1
    · congr 1
      refine List.filter_congr fun j hj => ?_
      rw [decide_eq_decide, covers_succ (List.mem_range.1 hj)]
    · simp [covers_self]
  · rw [hcons, Scope.outline_around, dropWhile_eq_filter h.2]
    refine List.pairwise_append.2 ⟨?_, h.2.filter _, ?_⟩
    · rcases hone with h | ⟨block, h⟩ <;> rw [h] <;> simp
    · intro f hf g hg
      rw [depth_of_mem_pushedAt hi hf]
      simpa using (List.mem_filter.1 hg).2

theorem told {ts : List Token} {i : Nat} (hi : i ≤ ts.length) : Told ts i := by
  induction i with
  | zero => exact ⟨rfl, List.Pairwise.nil⟩
  | succ i ih => exact (ih (by omega)).step (by omega)

/-- The depths of what is open grow from the root on. -/
theorem depths_stack_around {ts : List Token} (hd : ∀ t ∈ ts, 0 ≤ t.depth) {i : Nat}
    (hi : i ≤ ts.length) : ((around ts i).stack.map Frame.depth).Pairwise (· < ·) := by
  have hmem : ∀ f ∈ (around ts i).outline, rootDepth < f.depth := fun f hf => by
    rw [← List.mem_reverse, (told hi).outline_around hi] at hf
    obtain ⟨j, hj, hf⟩ := List.mem_flatMap.1 hf
    have hj := List.mem_range.1 (List.mem_filter.1 hj).1
    have := depthAt_nonneg hd (show j < ts.length by omega)
    rw [depth_of_mem_pushedAt (by omega) hf, rootDepth]
    omega
  have hsorted : (around ts i).outline.Pairwise (·.depth > ·.depth) := by
    rw [Scope.outline_around, dropWhile_eq_filter (told hi).2]
    exact (told hi).2.filter _
  rw [stack, List.map_cons, List.map_reverse, ← depths_outline]
  refine List.pairwise_cons.2 ⟨?_, ?_⟩
  · intro d hd'
    obtain ⟨f, hf, rfl⟩ := List.mem_map.1 (List.mem_reverse.1 hd')
    exact hmem f hf
  · rw [List.pairwise_reverse, List.pairwise_map]
    exact hsorted

theorem frames_around_length {ts : List Token} (hd : ∀ t ∈ ts, 0 ≤ t.depth) :
    (around ts ts.length).frames = [] := by
  rw [← outline_eq_nil, ← List.reverse_eq_nil_iff, (told le_rfl).outline_around le_rfl,
    List.filter_eq_nil_iff.2]
  · rfl
  · intro j hj
    have := depthAt_nonneg hd (List.mem_range.1 hj)
    simp only [decide_eq_true_eq, Encloses, depthAt_length, rootDepth]
    omega

/-- **The open blocks are told by the depths.** Around each token are open, above the root and in
order, the blocks of the tokens that enclose it. They are deeper the further inside they are. Each
token opens one block at most, at its own depth and line, and this block closes at the position
that ends the token and nowhere else. At the end the root alone is open. -/
theorem stack_around_eq (ts : List Token) (hd : ∀ t ∈ ts, 0 ≤ t.depth) :
    (∀ i ≤ ts.length,
      (around ts i).stack.map Frame.bare = ⟨rootDepth, 0, .forest⟩ ::
        ((List.range i).filter (Encloses ts · i)).flatMap (pushedAt ts) ∧
      ((around ts i).stack.map Frame.depth).Pairwise (· < ·) ∧
      ((closedAt ts i).map Frame.bare).reverse =
        ((List.range i).filter (Ends ts · i)).flatMap (pushedAt ts)) ∧
    (∀ j t, ts[j]? = some t →
      (before ts (j + 1)).outline = pushedAt ts j ++ (around ts j).outline ∧
      (pushedAt ts j = [] ∨ ∃ block, pushedAt ts j = [⟨t.depth, t.line, block⟩]) ∧
      ∃! i, i ≤ ts.length ∧ Ends ts j i) ∧
    (around ts ts.length).stack = [⟨rootDepth, 0, .forest⟩] := by
  refine ⟨fun i hi => ⟨?_, depths_stack_around hd hi, (told hi).closedAt hi⟩, ?_, ?_⟩
  · rw [← (told hi).outline_around hi, stack, List.map_cons, List.map_reverse]
    rfl
  · intro j t ht
    have hj : j < ts.length := (List.getElem?_eq_some_iff.1 ht).1
    exact ⟨(pushedAt_cases ht).1, (pushedAt_cases ht).2, existsUnique_ends hd hj⟩
  · rw [stack, frames_around_length hd]
    rfl

/-- A division that holds a paragraph and a condition, with one more line under the condition. -/
def division : List Token := [
  ⟨1, 0, .element, "div:".toList, "div:".toList, 0⟩,
  ⟨2, 4, .element, "p: hi".toList, "    p: hi".toList, 1⟩,
  ⟨3, 4, .control, "if $x:".toList, "    if $x:".toList, 1⟩,
  ⟨4, 8, .element, "span: a".toList, "        span: a".toList, 2⟩]

/-- The line under the condition stands in the blocks of the division and of the condition, which
the end closes. -/
theorem stack_around_division :
    (around division 3).stack.map Frame.bare =
      ⟨rootDepth, 0, .forest⟩ :: (pushedAt division 0 ++ pushedAt division 2) ∧
    ((closedAt division 4).map Frame.bare).reverse = pushedAt division 0 ++ pushedAt division 2 ∧
    (pushedAt division 0).length = 1 ∧ pushedAt division 1 = [] := by
  have h := stack_around_eq division (by decide)
  refine ⟨(h.1 3 (by decide)).1.trans ?_, (h.1 4 (by decide)).2.2.trans ?_, ?_, ?_⟩
  · rw [show (List.range 3).filter (Encloses division · 3) = [0, 2] by decide]
    simp
  · rw [show (List.range 4).filter (Ends division · 4) = [0, 2, 3] by decide]
    simp [show pushedAt division 3 = [] by decide]
  · decide
  · decide

end Scope

end ComponentLang
