import ComponentLang.Text.Basic
import Mathlib.Data.List.TakeWhile

/-!
# Beginnings, ends and lines of texts

* `startsWith_iff` : to begin with a text is to have it as a prefix;
* `exists_dropEndWhile` : what is cut at the end satisfies the condition for it;
* `splitFirst?_append`, `splitLast?_append` : cutting at the first or last place of a character;
* `not_mem_of_mem_pieces`, `pieces_append` : where a text is divided;
* `lines_append`, `lines_unlines` : texts put together with line feeds between them, divided again;
* `infix_unlines` : each line stands in the text;
* `lines_unlines_map` : a text changed line by line;
* `lines_flatMap` : the same with a line feed after each line.
-/

namespace ComponentLang.Text

theorem startsWith_iff {lead t : Text} : startsWith lead t ↔ lead <+: t := by
  rw [startsWith, Option.isSome_iff_exists]
  constructor
  · rintro ⟨r, hr⟩
    exact ⟨r, (after?_eq_some_iff.1 hr).symm⟩
  · rintro ⟨r, hr⟩
    exact ⟨r, after?_eq_some_iff.2 hr.symm⟩

theorem exists_dropEndWhile (p : Char → Bool) (t : Text) :
    ∃ tail : Text, (∀ c ∈ tail, p c) ∧ t = dropEndWhile p t ++ tail := by
  refine ⟨(t.reverse.takeWhile p).reverse, ?_, ?_⟩
  · intro c hc
    exact List.mem_takeWhile_imp (List.mem_reverse.1 hc)
  · rw [dropEndWhile, ← List.reverse_append, List.takeWhile_append_dropWhile, List.reverse_reverse]

theorem dropEndWhile_append {p : Char → Bool} {tail : Text} (h : ∀ c ∈ tail, p c) (t : Text) :
    dropEndWhile p (t ++ tail) = dropEndWhile p t := by
  unfold dropEndWhile
  rw [List.reverse_append, List.dropWhile_append_of_pos]
  intro c hc
  exact h c (List.mem_reverse.1 hc)

theorem dropEndWhile_append_of_mem {p : Char → Bool} {c : Char} {t : Text} (hc : c ∈ t) (hp : ¬ p c)
    (lead : Text) : dropEndWhile p (lead ++ t) = lead ++ dropEndWhile p t := by
  have hkept : t.reverse.dropWhile p ≠ [] := by
    intro hnil
    exact hp (List.dropWhile_eq_nil_iff.1 hnil c (List.mem_reverse.2 hc))
  unfold dropEndWhile
  rw [List.reverse_append, List.dropWhile_append, if_neg (by simpa using hkept)]
  simp

theorem dropFinal_subset (c : Char) (t : Text) : dropFinal c t ⊆ t := by
  unfold dropFinal
  split_ifs
  · exact List.dropLast_subset t
  · exact List.Subset.refl t

/-! ## Cutting at a character -/

theorem splitFirst?_append {c : Char} {a : Text} (h : c ∉ a) (b : Text) :
    splitFirst? c (a ++ c :: b) = some (a, b) := by
  induction a with
  | nil => simp [splitFirst?]
  | cons d a ih =>
    rw [List.mem_cons, not_or] at h
    rw [List.cons_append, splitFirst?, if_neg (Ne.symm h.1), ih h.2, Option.map_some]

theorem splitFirst?_of_not_mem {c : Char} {t : Text} (h : c ∉ t) : splitFirst? c t = none := by
  induction t with
  | nil => rfl
  | cons d t ih =>
    rw [List.mem_cons, not_or] at h
    rw [splitFirst?, if_neg (Ne.symm h.1), ih h.2, Option.map_none]

theorem isSome_splitFirst? {c : Char} {t : Text} : (splitFirst? c t).isSome ↔ c ∈ t := by
  induction t with
  | nil => simp [splitFirst?]
  | cons d t ih =>
    rw [splitFirst?, List.mem_cons]
    split_ifs with hd
    · simp [hd]
    · rw [Option.isSome_map, ih, or_iff_right (Ne.symm hd)]

theorem splitLast?_concat (c : Char) (a : Text) : splitLast? c (a ++ [c]) = some (a, []) := by
  induction a with
  | nil => simp [splitLast?]
  | cons d a ih => rw [List.cons_append, splitLast?, ih]

theorem splitLast?_of_not_mem {c : Char} {t : Text} (h : c ∉ t) : splitLast? c t = none := by
  induction t with
  | nil => rfl
  | cons d t ih =>
    rw [List.mem_cons, not_or] at h
    rw [splitLast?, ih h.2]
    exact if_neg (Ne.symm h.1)

theorem splitLast?_append {c : Char} {b : Text} (h : c ∉ b) (a : Text) :
    splitLast? c (a ++ c :: b) = some (a, b) := by
  induction a with
  | nil => rw [List.nil_append, splitLast?, splitLast?_of_not_mem h]; exact if_pos rfl
  | cons d a ih => rw [List.cons_append, splitLast?, ih]

theorem exists_last {c : Char} {t : Text} (h : c ∈ t) : ∃ a b, t = a ++ c :: b ∧ c ∉ b := by
  induction t with
  | nil => cases h
  | cons d t ih =>
    by_cases hc : c ∈ t
    · obtain ⟨a, b, rfl, hb⟩ := ih hc
      exact ⟨d :: a, b, rfl, hb⟩
    · obtain rfl := (List.mem_cons.1 h).resolve_right hc
      exact ⟨[], t, rfl, hc⟩

/-! ## Lines -/

theorem unlines_cons_cons (l l' : Text) (ls : List Text) :
    unlines (l :: l' :: ls) = l ++ '\n' :: unlines (l' :: ls) := by
  simp [unlines, List.intercalate]

theorem not_mem_of_mem_pieces {sep : Char} {t p : Text} (h : p ∈ pieces sep t) : sep ∉ p := by
  induction t generalizing p with
  | nil =>
    rw [pieces, List.mem_singleton] at h
    rw [h]
    exact List.not_mem_nil
  | cons c r ih =>
    rw [pieces] at h
    split at h
    · rcases List.mem_cons.1 h with rfl | h
      · exact List.not_mem_nil
      · exact ih h
    · next hc =>
      cases hr : pieces sep r with
      | nil => exact absurd hr (pieces_ne_nil sep r)
      | cons q qs =>
        rw [hr] at h ih
        rcases List.mem_cons.1 h with rfl | h
        · intro hmem
          rcases List.mem_cons.1 hmem with rfl | hmem
          · exact hc rfl
          · exact ih List.mem_cons_self hmem
        · exact ih (List.mem_cons_of_mem _ h)

theorem pieces_append {sep : Char} {p : Text} (h : sep ∉ p) (r : Text) :
    pieces sep (p ++ sep :: r) = p :: pieces sep r := by
  induction p with
  | nil => simp [pieces]
  | cons c p ih =>
    rw [List.mem_cons, not_or] at h
    rw [List.cons_append, pieces, if_neg (Ne.symm h.1), ih h.2, grow]

theorem pieces_of_not_mem {sep : Char} {p : Text} (h : sep ∉ p) : pieces sep p = [p] := by
  induction p with
  | nil => rfl
  | cons c p ih =>
    rw [List.mem_cons, not_or] at h
    rw [pieces, if_neg (Ne.symm h.1), ih h.2, grow]

/-- Two texts with a line feed between them. -/
theorem lines_append (s t : Text) : lines (s ++ '\n' :: t) = lines s ++ lines t := by
  unfold lines
  induction s with
  | nil => simp [pieces]
  | cons c s ih =>
    rw [List.cons_append, pieces, pieces, ih]
    split_ifs
    · rfl
    · obtain ⟨p, ps, hp⟩ := List.exists_cons_of_ne_nil (pieces_ne_nil '\n' s)
      simp [hp, grow]

/-- Lines put together are these lines again. -/
theorem lines_unlines {ls : List Text} (hne : ls ≠ []) (h : ∀ l ∈ ls, '\n' ∉ l) :
    lines (unlines ls) = ls := by
  induction ls with
  | nil => exact absurd rfl hne
  | cons l ls ih =>
    rw [List.forall_mem_cons] at h
    cases ls with
    | nil =>
      rw [unlines, List.intercalate_singleton]
      exact pieces_of_not_mem h.1
    | cons l' ls =>
      rw [unlines_cons_cons, lines_append, ih (List.cons_ne_nil _ _) h.2, lines, pieces_of_not_mem h.1,
        List.singleton_append]

theorem infix_unlines {l : Text} {ls : List Text} (h : l ∈ ls) : l <:+: unlines ls := by
  induction ls with
  | nil => cases h
  | cons l' ls ih =>
    cases ls with
    | nil =>
      have hl : l = unlines [l'] := by
        rw [unlines, List.intercalate_singleton, List.mem_singleton.1 h]
      exact hl ▸ List.infix_refl l
    | cons l'' ls =>
      rw [unlines_cons_cons]
      rcases List.mem_cons.1 h with rfl | h
      · exact (List.prefix_append l _).isInfix
      · exact (ih h).trans ((List.suffix_cons _ _).trans (List.suffix_append _ _)).isInfix

/-- The lines of a text, each changed to another line, make a text with these lines. -/
theorem lines_unlines_map {f : Text → Text} (hf : ∀ l, '\n' ∉ l → '\n' ∉ f l) (t : Text) :
    lines (unlines ((lines t).map f)) = (lines t).map f := by
  apply lines_unlines
  · rw [Ne, List.map_eq_nil_iff]
    exact pieces_ne_nil '\n' t
  · intro l' hl'
    obtain ⟨l, hl, rfl⟩ := List.mem_map.1 hl'
    exact hf l (not_mem_of_mem_pieces hl)

/-- Lines with a line feed after each, and nothing after the last one. -/
theorem lines_flatMap {ls : List Text} (h : ∀ l ∈ ls, '\n' ∉ l) :
    lines (ls.flatMap (· ++ ['\n'])) = ls ++ [[]] := by
  induction ls with
  | nil => rfl
  | cons l ls ih =>
    have hl := h l List.mem_cons_self
    have hls := ih fun l' hl' => h l' (List.mem_cons_of_mem _ hl')
    rw [lines] at hls ⊢
    rw [List.flatMap_cons, List.append_assoc, List.singleton_append, pieces_append hl, hls,
      List.cons_append]

end ComponentLang.Text
