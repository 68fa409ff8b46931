import ComponentLang.Proofs.Nesting.Rejoin

/-!
# Cutting a text at a separator

* `Free.append`, `Free.append_left` : a text is free of a separator if its two parts are, and no
  occurrence begins in the first and ends in the second;
* `cutFrom?_append`, `cutFrom?_of_free` : where the first occurrence of a separator is;
* `cutLastFrom?_append`, `cutLastFrom?_of_free` : where the last one is.
-/

namespace ComponentLang

namespace Nesting

theorem IsSeparator.not_mem {sep : Text} (h : IsSeparator sep) {c : Char} (hc : isPlain c = false) :
    c ∉ sep := by
  obtain ⟨a, rest, rfl, _, hplain⟩ := h
  intro hmem
  rw [hplain c hmem] at hc
  cases hc

theorem free_cons_of_not_isPlain {sep : Text} {s : Nesting} {c : Char} (hc : isPlain c = false)
    {t : Text} (ht : Free sep (s.next c) t) : Free sep s (c :: t) := by
  refine ⟨fun hm => ?_, ht⟩
  rw [(meets_iff.1 hm).2.1] at hc
  cases hc

/-- If the second part does not go on with a later character of the separator, no occurrence lies across
the two. -/
theorem Free.append {sep : Text} {s : Nesting} {t u : Text} (ht : Free sep s t)
    (hu : Free sep (s.scan t) u) (hhead : ∀ d ∈ u.head?, d ∉ sep.tail) : Free sep s (t ++ u) := by
  induction t generalizing s with
  | nil => exact hu
  | cons c t ih =>
    refine ⟨fun hm => ?_, ih ht.2 hu⟩
    obtain ⟨hs, hc, hp⟩ := meets_iff.1 hm
    rcases prefix_append_cases (t := c :: t) hp with hp' | ⟨d, v, w, hsep, hd⟩
    · exact ht.1 (meets_iff.2 ⟨hs, hc, hp'⟩)
    · -- then the separator goes on with the first character of `u`
      exact hhead d (by rw [hd]; rfl) (by rw [hsep]; simp)

/-- No occurrence begins where the first character of the separator is missing. -/
theorem Free.append_left {sep : Text} {a : Char} (ha : a ∈ sep.head?) {t : Text} (ht : a ∉ t)
    {s : Nesting} {u : Text} (hu : Free sep (s.scan t) u) : Free sep s (t ++ u) := by
  induction t generalizing s with
  | nil => exact hu
  | cons c t ih =>
    rw [List.mem_cons, not_or] at ht
    refine ⟨fun hm => ht.1 ?_, ih ht.2 hu⟩
    obtain ⟨rest, rfl⟩ := List.head?_eq_some_iff.1 ha
    obtain ⟨_, _, w, hw⟩ := meets_iff.1 hm
    exact (List.cons.inj hw).1

/-- A text that misses a character of the separator is free of it. -/
theorem free_of_not_mem {sep : Text} {a : Char} (ha : a ∈ sep) {t : Text} (ht : a ∉ t)
    (s : Nesting) : Free sep s t := by
  rw [free_iff_forall]
  rintro b c r rfl hm
  have hr : a ∈ c :: r := (meets_iff.1 hm).2.2.subset ha
  exact ht (List.mem_append_right b hr)

/-! ## The first occurrence -/

theorem cutFrom?_of_free {sep : Text} {s : Nesting} {t : Text} (h : Free sep s t) :
    cutFrom? sep s t = none := by
  induction t generalizing s with
  | nil => rfl
  | cons c t ih => rw [cutFrom?, if_neg h.1, ih h.2, Option.map_none]

theorem cutFrom?_append {sep : Text} (hsep : IsSeparator sep) {s : Nesting} {t : Text}
    (h : Free sep s t) (ht : s.scan t = top) (r : Text) :
    cutFrom? sep s (t ++ (sep ++ r)) = some (t, r) := by
  induction t generalizing s with
  | nil =>
    obtain ⟨a, rest, rfl, _, hplain⟩ := hsep
    have hm : s.meets (a :: rest) (a :: (rest ++ r)) :=
      meets_iff.2 ⟨ht, hplain a List.mem_cons_self, List.prefix_append _ _⟩
    rw [List.nil_append, List.cons_append, cutFrom?, if_pos hm]
    simp
  | cons c t ih =>
    rw [List.cons_append, cutFrom?, if_neg (not_meets_append hsep h.1), ih h.2 ht, Option.map_some]

/-! ## The last occurrence -/

theorem cutLastFrom?_of_free {sep : Text} {s : Nesting} {t : Text} (h : Free sep s t) :
    cutLastFrom? sep s t = none := by
  induction t generalizing s with
  | nil => rfl
  | cons c t ih => simp [cutLastFrom?, ih h.2, h.1]

theorem cutLastFrom?_append {sep : Text} (hsep : IsSeparator sep) {s : Nesting} {t : Text}
    (ht : s.scan t = top) {r : Text} (hr : Free sep top r) :
    cutLastFrom? sep s (t ++ (sep ++ r)) = some (t, r) := by
  induction t generalizing s with
  | nil =>
    obtain ⟨a, rest, rfl, ha, hplain⟩ := hsep
    have hs : s = top := ht
    have hscan : (top.next a).scan rest = top := scan_of_isPlain hplain 0
    -- no occurrence begins in the rest of this one
    have hafter : Free (a :: rest) (top.next a) (rest ++ r) :=
      Free.append_left rfl ha (by rwa [hscan])
    have hm : top.meets (a :: rest) (a :: (rest ++ r)) :=
      meets_iff.2 ⟨rfl, hplain a List.mem_cons_self, List.prefix_append _ _⟩
    rw [hs, List.nil_append, List.cons_append, cutLastFrom?, cutLastFrom?_of_free hafter]
    simp [hm]
  | cons c t ih =>
    rw [List.cons_append, cutLastFrom?, ih ht]

end Nesting

end ComponentLang
