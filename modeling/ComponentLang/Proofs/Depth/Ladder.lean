import ComponentLang.Depth
import Mathlib.Tactic.ByContra
import Mathlib.Tactic.SplitIfs

/-!
# Depths of evenly indented lines

* `length_settle_le` : a line is at most one block deeper than the line before it;
* `ladder unit d` : the widths open at a line of depth `d`, if every block is indented by `unit`;
* `settle_ladder` : evenly indented lines find such widths open, and leave such widths open;
* `level`, `assignFrom_ladder` : so lines at two neighbouring depths stand where their widths show.
-/

namespace ComponentLang.Depth

theorem length_settle_le (stack : List Int) (w : Int) :
    (settle stack w).length ≤ stack.length + 1 := by
  cases stack with
  | nil =>
    rw [settle]
    split <;> simp
  | cons top rest =>
    rw [settle]
    split
    · simp
    · have := (List.dropWhile_sublist (l := top :: rest) (w < ·)).length_le
      omega

/-- The widths that are open at depth `d`, innermost first. -/
def ladder (unit : Int) : Nat → List Int
  | 0 => []
  | d + 1 => ((d + 1 : Nat) * unit) :: ladder unit d

theorem length_ladder (unit : Int) (d : Nat) : (ladder unit d).length = d := by
  induction d with
  | zero => rfl
  | succ d ih => rw [ladder, List.length_cons, ih]

/-- Going back to an open width closes what is wider. -/
theorem dropWhile_ladder {unit : Int} (hu : 0 < unit) {d e : Nat} (h : e ≤ d) :
    (ladder unit d).dropWhile (((e : Nat) * unit : Int) < ·) = ladder unit e := by
  induction d with
  | zero =>
    rw [Nat.le_zero.1 h]
    rfl
  | succ d ih =>
    rcases Nat.lt_or_ge d e with hlt | hle
    · have he : e = d + 1 := by omega
      rw [he, ladder, List.dropWhile_cons, if_neg (by simp)]
    · have hwide : ((e : Nat) * unit : Int) < (d + 1 : Nat) * unit := by
        apply Int.mul_lt_mul_of_pos_right _ hu
        omega
      rw [ladder, List.dropWhile_cons, if_pos (by simpa using hwide), ih hle]

/-- A line whose depth is at most one more finds the widths of its own depth open. -/
theorem settle_ladder {unit : Int} (hu : 0 < unit) {d e : Nat} (h : e ≤ d + 1) :
    settle (ladder unit d) (e * unit) = ladder unit e := by
  cases d with
  | zero =>
    rcases Nat.le_one_iff_eq_zero_or_eq_one.1 h with rfl | rfl
    · simp [ladder, settle]
    · simp [ladder, settle, hu]
  | succ d =>
    rw [ladder, settle]
    split_ifs with hlt
    · have he : e = d + 1 + 1 := by
        have := Int.lt_of_mul_lt_mul_right hlt (Int.le_of_lt hu)
        omega
      rw [he]
      rfl
    · have he : e ≤ d + 1 := by
        by_contra hne
        apply hlt
        apply Int.mul_lt_mul_of_pos_right _ hu
        omega
      exact dropWhile_ladder hu he

/-- The token at the depth that its width shows, if every block is indented by `unit`. -/
def level (unit : Int) (t : Token) : Token := { t with depth := t.width / unit }

/-- Lines at two neighbouring depths get these depths, if the first of them is not too deep. -/
theorem assignFrom_ladder {unit : Int} (hu : 0 < unit) {d e : Nat} {ts : List Token}
    (hts : ∀ t ∈ ts, t.width = e * unit ∨ t.width = (e + 1 : Nat) * unit)
    (hfirst : ∀ t ∈ ts.head?, t.width ≤ (d + 1 : Nat) * unit) :
    assignFrom (ladder unit d) ts = ts.map (level unit) := by
  induction ts generalizing d with
  | nil => rfl
  | cons t ts ih =>
    rw [List.forall_mem_cons] at hts
    obtain ⟨n, hn, hwidth⟩ : ∃ n : Nat, e ≤ n ∧ t.width = n * unit := by
      rcases hts.1 with h | h
      · exact ⟨e, Nat.le_refl _, h⟩
      · exact ⟨e + 1, Nat.le_succ _, h⟩
    have hnd : n ≤ d + 1 := by
      have h := hfirst t rfl
      rw [hwidth] at h
      have := Int.le_of_mul_le_mul_right h hu
      omega
    have hsettle : settle (ladder unit d) t.width = ladder unit n := by
      rw [hwidth]
      exact settle_ladder hu hnd
    have hdepth : t.width / unit = n := by
      rw [hwidth]
      exact Int.mul_ediv_cancel _ (Int.ne_of_gt hu)
    -- whatever comes next is at most one block deeper than this line
    have hnext : ∀ u ∈ ts.head?, u.width ≤ (n + 1 : Nat) * unit := by
      intro u hmem
      have hmono : ∀ m ≤ n + 1, (m : Int) * unit ≤ (n + 1 : Nat) * unit := fun m hm =>
        Int.mul_le_mul_of_nonneg_right (by omega) (Int.le_of_lt hu)
      rcases hts.2 u (List.mem_of_mem_head? hmem) with h | h
      · rw [h]
        exact hmono e (by omega)
      · rw [h]
        exact hmono (e + 1) (by omega)
    rw [assignFrom, hsettle, length_ladder, ih hts.2 hnext, List.map_cons, level, hdepth]

end ComponentLang.Depth
