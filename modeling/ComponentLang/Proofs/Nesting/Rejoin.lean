import ComponentLang.Proofs.Nesting.Split

/-!
# Parts put together, and parts found again

* `Occurs sep t` : the separator begins somewhere at the top level of the text;
* `free_iff` : a text is free of a separator if the separator does not occur in it;
* `intercalate_splitFrom` : whatever the separator is, the parts of a text put together are the text;
* `split_rejoins` : and parts without the separator that come back to the top level are found again.
-/

namespace ComponentLang

namespace Nesting

theorem isSeparator_comma : IsSeparator [','] :=
  ⟨',', [], rfl, by decide, List.all_eq_true.1 rfl⟩

theorem isSeparator_colon : IsSeparator [':'] :=
  ⟨':', [], rfl, by decide, List.all_eq_true.1 rfl⟩

theorem isSeparator_arrow : IsSeparator "->".toList :=
  ⟨'-', ['>'], rfl, by decide, List.all_eq_true.1 rfl⟩

/-- The separator begins at a plain character that a scan meets at the top level. -/
def Occurs (sep t : Text) : Prop :=
  ∃ a c r, t = a ++ c :: r ∧ top.scan a = top ∧ isPlain c ∧ sep <+: c :: r

theorem free_iff_forall {sep : Text} {s : Nesting} {t : Text} :
    Free sep s t ↔ ∀ a c r, t = a ++ c :: r → ¬ (s.scan a).meets sep (c :: r) := by
  induction t generalizing s with
  | nil => simp [Free]
  | cons d t ih =>
    rw [Free, ih]
    constructor
    · rintro ⟨hd, ht⟩ a c r heq
      cases a with
      | nil =>
        cases heq
        exact hd
      | cons e a =>
        obtain ⟨rfl, rfl⟩ := List.cons.inj heq
        exact ht a c r rfl
    · intro h
      refine ⟨h [] d t rfl, fun a c r heq => ?_⟩
      exact h (d :: a) c r (by rw [heq, List.cons_append])

theorem free_iff {sep t : Text} : Free sep top t ↔ ¬ Occurs sep t := by
  rw [free_iff_forall]
  constructor
  · rintro h ⟨a, c, r, heq, hmeets⟩
    exact h a c r heq (meets_iff.2 hmeets)
  · intro h a c r heq hmeets
    exact h ⟨a, c, r, heq, meets_iff.1 hmeets⟩

instance decidableFree (sep : Text) : (s : Nesting) → (t : Text) → Decidable (Free sep s t)
  | _, [] => .isTrue trivial
  | s, c :: r =>
    have := decidableFree sep (s.next c) r
    inferInstanceAs (Decidable (¬ s.meets sep (c :: r) ∧ Free sep (s.next c) r))

instance (sep t : Text) : Decidable (Occurs sep t) :=
  decidable_of_iff (¬ Free sep top t) (by rw [free_iff, not_not])

/-- Parts as a list of texts: none holds the separator, and all but the last come back to the top
level. -/
theorem parted_iff {sep : Text} {ps : List Text} :
    Parted sep top ps ↔
      ps ≠ [] ∧ (∀ p ∈ ps, ¬ Occurs sep p) ∧ ∀ p ∈ ps.dropLast, top.scan p = top := by
  induction ps with
  | nil => simp [Parted]
  | cons p ps ih =>
    cases ps with
    | nil => simp [Parted, free_iff]
    | cons q ps =>
      rw [Parted, ih, free_iff, List.dropLast_cons_cons, List.forall_mem_cons (a := p),
        List.forall_mem_cons (a := p)]
      constructor
      · rintro ⟨hp, hscan, _, hfree, hback⟩
        exact ⟨List.cons_ne_nil _ _, ⟨hp, hfree⟩, hscan, hback⟩
      · rintro ⟨_, ⟨hp, hfree⟩, hscan, hback⟩
        exact ⟨hp, hscan, List.cons_ne_nil _ _, hfree, hback⟩

/-! ## Any separator -/

theorem grow_ne_nil (c : Char) (ps : List Text) : Text.grow c ps ≠ [] := by
  cases ps <;> simp [Text.grow]

theorem splitFrom_ne_nil (sep : Text) (s : Nesting) (skip : Nat) (t : Text) :
    splitFrom sep s skip t ≠ [] := by
  induction t generalizing s skip with
  | nil => simp [splitFrom]
  | cons c r ih =>
    cases skip with
    | succ skip =>
      rw [splitFrom]
      exact ih (s.next c) skip
    | zero =>
      by_cases hm : s.meets sep (c :: r)
      · cases sep <;> simp [splitFrom, hm]
      · rw [splitFrom_of_not_meets hm]
        exact grow_ne_nil c _

theorem intercalate_nil_cons (sep : Text) {ps : List Text} (h : ps ≠ []) :
    List.intercalate sep ([] :: ps) = sep ++ List.intercalate sep ps := by
  obtain ⟨p, ps, rfl⟩ := List.exists_cons_of_ne_nil h
  rw [List.intercalate_cons_cons, List.nil_append]

theorem intercalate_grow_of_ne_nil (sep : Text) (c : Char) {ps : List Text} (h : ps ≠ []) :
    List.intercalate sep (Text.grow c ps) = c :: List.intercalate sep ps := by
  obtain ⟨p, ps, rfl⟩ := List.exists_cons_of_ne_nil h
  exact intercalate_grow sep c p ps

/-- The parts of a text put together are the text, also with a separator that is empty, holds
brackets or quotes, or overlaps itself. -/
theorem intercalate_splitFrom (sep : Text) (s : Nesting) (t : Text) :
    List.intercalate sep (splitFrom sep s 0 t) = t := by
  induction hn : t.length using Nat.strongRecOn generalizing s t with
  | ind n ih =>
    cases t with
    | nil => exact List.intercalate_singleton
    | cons c r =>
      have hlt : r.length < n := by rw [← hn, List.length_cons]; omega
      have hrest := ih r.length hlt (s.next c) r rfl
      have hne := splitFrom_ne_nil sep (s.next c) 0 r
      by_cases hm : s.meets sep (c :: r)
      · cases sep with
        | nil =>
          rw [splitFrom, if_pos hm]
          rw [intercalate_nil_cons [] (grow_ne_nil c _), intercalate_grow_of_ne_nil [] c hne, hrest,
            List.nil_append]
        | cons a rest =>
          -- the rest of the occurrence is skipped, and the text goes on after it
          obtain ⟨_, _, r', hr⟩ := meets_iff.1 hm
          rw [List.cons_append] at hr
          obtain ⟨rfl, rfl⟩ := List.cons.inj hr
          have hlt' : r'.length < n := by rw [List.length_append] at hlt; omega
          rw [splitFrom, if_pos hm]
          rw [splitFrom_skip, intercalate_nil_cons _ (splitFrom_ne_nil _ _ _ _), ih _ hlt' _ r' rfl,
            List.cons_append]
      · rw [splitFrom_of_not_meets hm, intercalate_grow_of_ne_nil sep c hne, hrest]

/-- Dividing and putting together are inverse: for every separator the parts make up the text; and for
a comma or an arrow, no part holds it at the top level, and parts that do not, and of which all but the
last come back to the top level, are found again. -/
theorem split_rejoins :
    (∀ sep t : Text, List.intercalate sep (Text.split sep t) = t) ∧
      ∀ sep : Text, sep = [','] ∨ sep = "->".toList →
        (∀ t, ∀ p ∈ Text.split sep t, ¬ Occurs sep p) ∧
          ∀ ps : List Text, ps ≠ [] → (∀ p ∈ ps, ¬ Occurs sep p) →
            (∀ p ∈ ps.dropLast, top.scan p = top) →
            Text.split sep (List.intercalate sep ps) = ps := by
  refine ⟨fun sep t => intercalate_splitFrom sep top t, fun sep hsep => ?_⟩
  have hsep : IsSeparator sep := by
    rcases hsep with rfl | rfl
    · exact isSeparator_comma
    · exact isSeparator_arrow
  constructor
  · intro t
    exact (parted_iff.1 (splitFrom_spec hsep top t).1).2.1
  · intro ps hne hfree hback
    exact splitFrom_intercalate hsep (parted_iff.2 ⟨hne, hfree, hback⟩)

theorem split_rejoins_arrows :
    (∀ p ∈ ["a) -".toList, "> f('->', b)".toList, "[c -> d".toList], ¬ Occurs "->".toList p) ∧
      (∀ p ∈ ["a) -".toList, "> f('->', b)".toList], top.scan p = top) ∧
      Text.split "->".toList "a) -->> f('->', b)->[c -> d".toList =
        ["a) -".toList, "> f('->', b)".toList, "[c -> d".toList] := by
  have hfree : ∀ p ∈ ["a) -".toList, "> f('->', b)".toList, "[c -> d".toList],
      ¬ Occurs "->".toList p := by decide
  have hback : ∀ p ∈ ["a) -".toList, "> f('->', b)".toList], top.scan p = top := by decide
  exact ⟨hfree, hback, (split_rejoins.2 "->".toList (Or.inr rfl)).2 _ (by decide) hfree hback⟩

end Nesting

end ComponentLang
