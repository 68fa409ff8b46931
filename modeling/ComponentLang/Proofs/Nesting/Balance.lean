import ComponentLang.Proofs.Nesting.Cut
import ComponentLang.Proofs.Nesting.Padding
import Mathlib.Data.List.Induction

/-!
# Balanced texts

* `Balanced t` : a scan of `t` comes back to where it started, under however many open brackets;
* `Overcloses t` : `t` closes a bracket that it did not open; `balanced_iff` : a text is balanced if a
  scan from the top level comes back there and nothing is closed too often;
* `Balanced.append`, `Balanced.bracketed`, `balanced_trim` : what balanced texts are made of;
* `balanced_of_bracketed` : what stands between the outer brackets of a balanced text is balanced
  unless it closes the first of them;
* `Balanced.free`, `Balanced.free_bracketed` : inside brackets, a balanced text holds no separator.
-/

namespace ComponentLang

open Text (Blank trim isBlank)

namespace Nesting

/-! ## Under more brackets -/

/-- The same place under `k` more open brackets. -/
def deepen (k : Nat) : Nesting → Nesting
  | .plain d => .plain (d + k)
  | .quoted d q => .quoted (d + k) q
  | .escaped d q => .escaped (d + k) q

theorem deepen_ne_top {k : Nat} (hk : 0 < k) (s : Nesting) : s.deepen k ≠ top := by
  cases s with
  | plain d =>
    rw [deepen, top, Ne, plain.injEq]
    omega
  | _ => simp [deepen, top]

/-- More brackets around make no difference to a step, unless it closes what is not open. -/
theorem next_deepen {s : Nesting} {c : Char} (h : ¬ (s = top ∧ isCloser c)) (k : Nat) :
    (s.deepen k).next c = (s.next c).deepen k := by
  cases s with
  | plain d =>
    rw [deepen, next, next]
    split_ifs with hq ho hc
    · rfl
    · rw [deepen, Nat.add_right_comm]
    · have hd : d ≠ 0 := by
        rintro rfl
        exact h ⟨rfl, hc⟩
      rw [deepen, Nat.sub_add_comm (Nat.one_le_iff_ne_zero.2 hd)]
    · rfl
  | quoted d q =>
    rw [deepen, next, next]
    split_ifs <;> rfl
  | escaped d q => rfl

theorem next_of_isCloser {c : Char} (h : isCloser c) (d : Nat) :
    (plain d).next c = plain (d - 1) := by
  simp only [isCloser, Bool.or_eq_true, decide_eq_true_eq] at h
  rcases h with (rfl | rfl) | rfl <;> rfl

theorem next_of_isOpener {c : Char} (h : isOpener c) (d : Nat) :
    (plain d).next c = plain (d + 1) := by
  simp only [isOpener, Bool.or_eq_true, decide_eq_true_eq] at h
  rcases h with (rfl | rfl) | rfl <;> rfl

/-! ## Balance -/

/-- Brackets are paired and quotes closed: under any number of open brackets, a scan comes back to where
it started. Like the scan, this does not tell the kinds of brackets apart. -/
def Balanced (t : Text) : Prop := ∀ d, (plain d).scan t = plain d

/-- Some closing bracket has no partner before it. -/
def Overcloses (t : Text) : Prop := ∃ a c r, t = a ++ c :: r ∧ Balanced a ∧ isCloser c

theorem Overcloses.append {t : Text} (h : Overcloses t) (u : Text) : Overcloses (t ++ u) := by
  obtain ⟨a, c, r, rfl, ha, hc⟩ := h
  exact ⟨a, c, r ++ u, by rw [List.append_assoc, List.cons_append], ha, hc⟩

/-- A text that closes only what it opens is scanned in the same way under more brackets. -/
theorem scan_plain {t : Text} (h : ¬ Overcloses t) (k : Nat) :
    (plain k).scan t = (top.scan t).deepen k := by
  induction t using List.reverseRecOn generalizing k with
  | nil => simp [scan, top, deepen]
  | append_singleton t c ih =>
    have ht := ih fun ho => h (ho.append [c])
    have hstep : ¬ (top.scan t = top ∧ isCloser c) := by
      rintro ⟨htop, hc⟩
      -- otherwise `t` is balanced, and the last character closes too much
      refine h ⟨t, c, [], rfl, fun d => ?_, hc⟩
      rw [ht, htop, top, deepen, Nat.zero_add]
    rw [scan_append, scan_append, ht]
    exact next_deepen hstep k

theorem Overcloses.not_balanced {t : Text} (h : Overcloses t) : ¬ Balanced t := by
  intro ht
  obtain ⟨a, c, r, rfl, ha, hc⟩ := h
  -- at the top level and under one bracket, the same is left after the closing bracket
  have hafter : ∀ d, (plain d).scan (a ++ c :: r) = (plain (d - 1)).scan r := fun d => by
    rw [scan_append, ha, scan_cons, next_of_isCloser hc]
  have h0 := (hafter 0).symm.trans (ht 0)
  have h1 := (hafter 1).symm.trans (ht 1)
  cases h0.symm.trans h1

theorem balanced_iff {t : Text} : Balanced t ↔ top.scan t = top ∧ ¬ Overcloses t := by
  constructor
  · intro h
    exact ⟨h 0, fun ho => ho.not_balanced h⟩
  · rintro ⟨htop, ho⟩ d
    rw [scan_plain ho, htop, top, deepen, Nat.zero_add]

/-- Two scans tell whether a text is balanced. -/
theorem balanced_iff_scan {t : Text} :
    Balanced t ↔ top.scan t = top ∧ (plain 1).scan t = plain 1 := by
  constructor
  · intro h
    exact ⟨h 0, h 1⟩
  · rintro ⟨h0, h1⟩
    refine balanced_iff.2 ⟨h0, ?_⟩
    rintro ⟨a, c, r, rfl, ha, hc⟩
    rw [top, scan_append, ha, scan_cons, next_of_isCloser hc] at h0
    rw [scan_append, ha, scan_cons, next_of_isCloser hc, h0] at h1
    cases h1

instance (t : Text) : Decidable (Balanced t) := decidable_of_iff _ balanced_iff_scan.symm

/-! ## What balanced texts are made of -/

theorem balanced_of_isPlain {t : Text} (h : ∀ c ∈ t, isPlain c) : Balanced t := scan_of_isPlain h

theorem balanced_blank {b : Text} (h : Blank b) : Balanced b :=
  balanced_of_isPlain fun c hc => isPlain_of_isBlank (h c hc)

theorem Balanced.append {t u : Text} (ht : Balanced t) (hu : Balanced u) : Balanced (t ++ u) := by
  intro d
  rw [scan_append, ht, hu]

theorem Balanced.cons {c : Char} (hc : isPlain c) {t : Text} (ht : Balanced t) :
    Balanced (c :: t) := by
  intro d
  rw [scan_cons, next_of_isPlain hc, ht]

theorem Balanced.of_append {t u : Text} (ht : Balanced t) (h : Balanced (t ++ u)) : Balanced u := by
  intro d
  have hd := h d
  rwa [scan_append, ht] at hd

theorem Balanced.intercalate {sep : Text} (hsep : Balanced sep) {ps : List Text}
    (h : ∀ p ∈ ps, Balanced p) : Balanced (List.intercalate sep ps) := by
  induction ps with
  | nil => exact fun d => rfl
  | cons p ps ih =>
    rw [List.forall_mem_cons] at h
    cases ps with
    | nil =>
      rw [List.intercalate_singleton]
      exact h.1
    | cons q ps =>
      rw [List.intercalate_cons_cons]
      exact (h.1.append hsep).append (ih h.2)

theorem Balanced.bracketed {t : Text} (h : Balanced t) : Balanced ('(' :: (t ++ [')'])) := by
  intro d
  rw [scan_cons, next_of_isOpener rfl, scan_append, h, scan_cons, next_of_isCloser rfl]
  rfl

theorem balanced_trim {t : Text} : Balanced (trim t) ↔ Balanced t := by
  obtain ⟨lead, tail, hlead, htail, ht⟩ := Text.exists_pad t
  constructor
  · intro h
    rw [ht]
    exact (balanced_blank hlead).append (h.append (balanced_blank htail))
  · intro h
    refine balanced_iff.2 ⟨(scan_trim t).2 (h 0), fun ho => ?_⟩
    rw [ht] at h
    exact (ho.append tail).not_balanced ((balanced_blank hlead).of_append h)

/-- What stands between brackets that are balanced together is balanced, unless it closes the first
of them. -/
theorem balanced_of_bracketed {t : Text} (h : Balanced ('(' :: (t ++ [')'])))
    (ho : ¬ Overcloses t) : Balanced t := by
  have hlast : ((plain 1).scan t).next ')' = plain 0 := by
    rw [← h 0, scan_cons, next_of_isOpener rfl, scan_append]
    rfl
  rw [scan_plain ho] at hlast
  refine balanced_iff.2 ⟨?_, ho⟩
  have hmark : (top.scan t).Marked := Marked.scan (s := top) trivial t
  cases hs : top.scan t with
  | plain d =>
    rw [hs, deepen, next_of_isCloser rfl] at hlast
    exact hlast
  | quoted d q =>
    -- the last bracket closes no string
    rw [hs] at hlast hmark
    have hq : ')' ≠ q := by
      rintro rfl
      cases hmark
    rw [deepen, next, if_neg (by decide), if_neg hq] at hlast
    cases hlast
  | escaped d q =>
    rw [hs] at hlast
    cases hlast

/-! ## Inside brackets -/

/-- Inside brackets, a balanced text nowhere comes to the top level. -/
theorem Balanced.free {t : Text} (h : Balanced t) (sep : Text) {d : Nat} (hd : 0 < d) :
    Free sep (plain d) t := by
  rw [free_iff_forall]
  rintro a c r rfl hmeets
  have ho : ¬ Overcloses a := fun ho => (ho.append (c :: r)).not_balanced h
  have htop := (meets_iff.1 hmeets).1
  rw [scan_plain ho] at htop
  exact deepen_ne_top hd _ htop

/-- No separator occurs in balanced brackets. -/
theorem Balanced.free_bracketed {t : Text} (h : Balanced t) {sep : Text} (hsep : IsSeparator sep) :
    Free sep top ('(' :: (t ++ [')'])) := by
  refine free_cons_of_not_isPlain rfl ((h.free sep Nat.one_pos).append ?_ ?_)
  · exact free_cons_of_not_isPlain rfl trivial
  · rintro d hd hmem
    cases hd
    exact hsep.not_mem rfl (List.mem_of_mem_tail hmem)

end Nesting

end ComponentLang
