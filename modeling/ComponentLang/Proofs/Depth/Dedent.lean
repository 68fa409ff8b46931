import ComponentLang.Proofs.Depth.Ladder
import ComponentLang.Token.Lexicon

/-!
# Lines that are not indented further

A line that is no wider than the line before it is no deeper either, with one exception: if the line
before goes back to a width at which nothing is open, then the widths that stay open are narrower than
that line, and a second line of its width stands one block deeper.

* `openBefore ts i` : the widths open before the token at the position `i`;
* `getElem?_assign` : the depth of a token is the number of widths open after it;
* `noticeAt? ts i` : the notice on that token;
* `notice?_eq` : a token has a notice if and only if it is wider than what stays open;
* `depth_of_width_le` : when a line is deeper than a line before it that is at least as wide.
-/

namespace ComponentLang.Depth

/-! ## The widths that a line leaves open -/

/-- What stays open at a line is no wider than the line. -/
theorem nearest_settle_le (stack : List Int) {w : Int} (hw : 0 ≤ w) :
    nearest (settle stack w) ≤ w := by
  cases stack with
  | nil =>
    rw [settle]
    split_ifs
    · exact Int.le_refl w
    · exact hw
  | cons top rest =>
    rw [settle]
    split_ifs
    · exact Int.le_refl w
    · cases hopen : (top :: rest).dropWhile (w < ·) with
      | nil => exact hw
      | cons v vs =>
        have hv := List.head?_dropWhile_not (w < ·) (top :: rest)
        rw [hopen] at hv
        simpa [nearest] using hv

/-- A wider line opens its own width. -/
theorem settle_of_lt {stack : List Int} {w : Int} (h : nearest stack < w) :
    settle stack w = w :: stack := by
  cases stack with
  | nil => exact if_pos h
  | cons top rest => exact if_pos h

/-- A line of the innermost width leaves all widths as they are. -/
theorem settle_nearest (stack : List Int) : settle stack (nearest stack) = stack := by
  cases stack with
  | nil => rfl
  | cons top rest => simp [settle, nearest]

theorem length_settle_le_of_le {stack : List Int} {w : Int} (h : w ≤ nearest stack) :
    (settle stack w).length ≤ stack.length := by
  cases stack with
  | nil =>
    have hw : ¬ 0 < w := by
      simp only [nearest, List.headD_nil] at h
      omega
    simp [settle, hw]
  | cons top rest =>
    have hw : ¬ top < w := by
      simp only [nearest, List.headD_cons] at h
      omega
    rw [settle, if_neg hw]
    exact (List.dropWhile_sublist _).length_le

theorem length_lt_settle_iff (stack : List Int) (w : Int) :
    stack.length < (settle stack w).length ↔ nearest stack < w := by
  constructor
  · intro h
    by_contra hw
    have hle : w ≤ nearest stack := by omega
    have hlength := length_settle_le_of_le hle
    omega
  · intro h
    rw [settle_of_lt h]
    simp

/-- A token has a notice if and only if it is wider than what it leaves open. -/
theorem notice?_eq (stack : List Int) {t : Token} (ht : 0 ≤ t.width) :
    notice? stack t =
      if nearest (settle stack t.width) < t.width then
        some (.looseDedent t.line t.width (nearest (settle stack t.width)))
      else none := by
  have hle := nearest_settle_le stack ht
  rw [notice?]
  rcases Int.lt_trichotomy t.width (nearest stack) with hlt | heq | hgt
  · have hne : nearest (settle stack t.width) ≠ t.width ↔
        nearest (settle stack t.width) < t.width := by omega
    simp [hlt, hne]
  · have hsettle : settle stack t.width = stack := by rw [heq, settle_nearest]
    simp [hsettle, ← heq]
  · have hopen : nearest (settle stack t.width) = t.width := by
      rw [settle_of_lt hgt]
      rfl
    simp [hopen]

/-! ## Positions -/

/-- The widths open after tokens before which `stack` is open. -/
def openAfter (stack : List Int) (ts : List Token) : List Int :=
  ts.foldl (fun stack t => settle stack t.width) stack

/-- The widths open before the token at a position. -/
def openBefore (ts : List Token) (i : Nat) : List Int := openAfter [] (ts.take i)

/-- The notice on the token at a position. -/
def noticeAt? (ts : List Token) (i : Nat) : Option Notice :=
  ts[i]?.bind (notice? (openBefore ts i))

theorem openBefore_succ {ts : List Token} {i : Nat} {t : Token} (h : ts[i]? = some t) :
    openBefore ts (i + 1) = settle (openBefore ts i) t.width := by
  rw [openBefore, openAfter, List.take_add_one, List.foldl_append, h]
  rfl

theorem getElem?_assignFrom (stack : List Int) (ts : List Token) (i : Nat) :
    (assignFrom stack ts)[i]? =
      ts[i]?.map fun t => { t with depth := (openAfter stack (ts.take (i + 1))).length } := by
  induction ts generalizing stack i with
  | nil => rfl
  | cons t ts ih =>
    cases i with
    | zero => rfl
    | succ i =>
      rw [assignFrom, List.getElem?_cons_succ, ih]
      rfl

/-- The depth of a token is the number of widths open after it. -/
theorem getElem?_assign (ts : List Token) (i : Nat) :
    (assign ts)[i]? = ts[i]?.map fun t => { t with depth := (openBefore ts (i + 1)).length } :=
  getElem?_assignFrom [] ts i

/-! ## Two lines in a row -/

/-- **A line that is no wider than the line before it is no deeper, unless that goes back to a width at
which nothing is open.** The line is then deeper if it is wider than what stays open, by one block.
Two lines of one width stand at one depth, with this exception. -/
theorem depth_of_width_le {ts : List Token} (hts : withinMargin ts) {i : Nat} {t u : Token}
    (ht : (assign ts)[i]? = some t) (hu : (assign ts)[i + 1]? = some u) (hw : u.width ≤ t.width) :
    (t.depth < u.depth ↔
      ∃ n < u.width, noticeAt? ts i = some (.looseDedent t.line t.width n)) ∧
    u.depth ≤ t.depth + 1 ∧
    (u.width = t.width → (u.depth = t.depth ↔ noticeAt? ts i = none)) := by
  rw [getElem?_assign] at ht hu
  obtain ⟨t₀, ht₀, rfl⟩ := Option.map_eq_some_iff.1 ht
  obtain ⟨u₀, hu₀, rfl⟩ := Option.map_eq_some_iff.1 hu
  dsimp only at hw ⊢
  have hmargin : 0 ≤ t₀.width := by
    have hall := List.all_eq_true.1 hts t₀ (List.mem_of_getElem? ht₀)
    simpa using hall
  have hnotice : noticeAt? ts i = notice? (openBefore ts i) t₀ := by
    rw [noticeAt?, ht₀]
    rfl
  have hopen := nearest_settle_le (openBefore ts i) hmargin
  rw [hnotice, notice?_eq _ hmargin, openBefore_succ hu₀, openBefore_succ ht₀]
  -- what is left is about the widths that the first line leaves open
  generalize settle (openBefore ts i) t₀.width = stack at hopen ⊢
  have hdeeper := length_lt_settle_iff stack u₀.width
  have hbound := length_settle_le stack u₀.width
  refine ⟨?_, by omega, ?_⟩
  · rw [Int.ofNat_lt, hdeeper]
    constructor
    · intro h
      exact ⟨nearest stack, h, if_pos (by omega)⟩
    · rintro ⟨n, hn, h⟩
      split_ifs at h
      cases h
      exact hn
  · intro hsame
    rw [hsame] at hdeeper ⊢
    split_ifs with h
    · have hlt := hdeeper.2 h
      exact iff_of_false (by omega) (by simp)
    · have heq : t₀.width = nearest stack := by omega
      rw [heq, settle_nearest]
      simp

/-- Two lines of one width, after a line that is indented further. -/
def sag : List Token := Lexicon.tokens {} "    a\n  b\n  c".toList

/-- The last line goes under the line before it, which goes back to a width at which nothing is
open. -/
theorem depth_of_width_le_sag :
    let t : Token := ⟨2, 2, .expression, ['b'], "  b".toList, 0⟩
    let u : Token := ⟨3, 2, .expression, ['c'], "  c".toList, 1⟩
    withinMargin sag ∧ (assign sag)[1]? = some t ∧ (assign sag)[2]? = some u ∧
      u.width ≤ t.width ∧ (∃ n < 2, noticeAt? sag 1 = some (.looseDedent 2 2 n)) ∧
      notices sag = [.looseDedent 2 2 0] := by
  intro t u
  have hmargin : withinMargin sag := by decide +kernel
  have ht : (assign sag)[1]? = some t := by decide +kernel
  have hu : (assign sag)[2]? = some u := by decide +kernel
  have hw : u.width ≤ t.width := by decide
  obtain ⟨hdeeper, _, _⟩ := depth_of_width_le hmargin ht hu hw
  refine ⟨hmargin, ht, hu, hw, hdeeper.1 (by decide), ?_⟩
  decide +kernel

/-- So it is not enough that the line is no wider. -/
theorem not_depth_le_sag :
    withinMargin sag ∧
    ¬ ∀ (i : Nat) (t u : Token), (assign sag)[i]? = some t → (assign sag)[i + 1]? = some u →
      u.width ≤ t.width → u.depth ≤ t.depth := by
  refine ⟨by decide +kernel, fun h => ?_⟩
  have hsag := h 1 ⟨2, 2, .expression, ['b'], "  b".toList, 0⟩
    ⟨3, 2, .expression, ['c'], "  c".toList, 1⟩ (by decide +kernel) (by decide +kernel) (by decide)
  exact absurd hsag (by decide)

end ComponentLang.Depth
