import ComponentLang.Nesting
import ComponentLang.Proofs.Text.Basic

/-!
# Dividing a text at top-level separators

* `IsSeparator sep` : `sep` is made of characters that are neither quotes nor brackets, and the
  first of them does not occur again;
* `Free sep s t` : no top-level occurrence of `sep` begins in `t`, for a scan that stands at `s`;
* `Parted sep s ps` : the parts are free of `sep`, and all but the last lead back to the top level;
* `splitFrom_spec` : what a text is divided into are such parts, and put together they are the text;
* `splitFrom_intercalate` : parts like these are found again when they are put together.
-/

namespace ComponentLang

namespace Nesting

/-- The character is neither a quote nor a bracket. -/
def isPlain (c : Char) : Bool := !(isQuoteMark c || isOpener c || isCloser c)

theorem next_of_isPlain {c : Char} (h : isPlain c) (d : Nat) : (plain d).next c = plain d := by
  simp only [isPlain, Bool.not_eq_true', Bool.or_eq_false_iff] at h
  simp [next, h.1.1, h.1.2, h.2]

theorem scan_cons (s : Nesting) (c : Char) (t : Text) : s.scan (c :: t) = (s.next c).scan t := rfl

theorem scan_append (s : Nesting) (t u : Text) : s.scan (t ++ u) = (s.scan t).scan u :=
  List.foldl_append

theorem scan_of_isPlain {t : Text} (h : ∀ c ∈ t, isPlain c) (d : Nat) :
    (plain d).scan t = plain d := by
  induction t with
  | nil => rfl
  | cons c t ih =>
    rw [scan_cons, next_of_isPlain (h c List.mem_cons_self)]
    exact ih fun e he => h e (List.mem_cons_of_mem _ he)

theorem meets_iff {s : Nesting} {sep : Text} {c : Char} {r : Text} :
    s.meets sep (c :: r) ↔ s = top ∧ isPlain c ∧ sep <+: c :: r := by
  rw [meets, Bool.and_eq_true_iff, Text.startsWith_iff, ← and_assoc]
  refine and_congr_left fun _ => ?_
  cases s with
  | plain d =>
    cases d with
    | zero => simp [atTop, top, isPlain]
    | succ d => simp [atTop, top]
  | _ => simp [atTop, top]

/-- The separator is made of plain characters and never overlaps itself. -/
def IsSeparator (sep : Text) : Prop :=
  ∃ a rest, sep = a :: rest ∧ a ∉ rest ∧ ∀ c ∈ sep, isPlain c

/-- No top-level occurrence of the separator begins in the text. -/
def Free (sep : Text) : Nesting → Text → Prop
  | _, [] => True
  | s, c :: r => ¬ s.meets sep (c :: r) ∧ Free sep (s.next c) r

/-- The parts hold no top-level separator, and from each a scan comes back to the top level before
the next one. -/
def Parted (sep : Text) : Nesting → List Text → Prop
  | _, [] => False
  | s, [p] => Free sep s p
  | s, p :: q :: ps => Free sep s p ∧ s.scan p = top ∧ Parted sep top (q :: ps)

theorem Free.left {sep : Text} {s : Nesting} {t u : Text} (h : Free sep s (t ++ u)) :
    Free sep s t := by
  induction t generalizing s with
  | nil => trivial
  | cons c t ih =>
    refine ⟨fun hm => h.1 ?_, ih h.2⟩
    obtain ⟨hs, hc, hp⟩ := meets_iff.1 hm
    exact meets_iff.2 ⟨hs, hc, hp.trans (List.prefix_append (c :: t) u)⟩

theorem Free.right {sep : Text} {s : Nesting} {t u : Text} (h : Free sep s (t ++ u)) :
    Free sep (s.scan t) u := by
  induction t generalizing s with
  | nil => exact h
  | cons c t ih => exact ih h.2

/-! ## From a text to its parts -/

theorem splitFrom_skip (sep : Text) (s : Nesting) (u r : Text) :
    splitFrom sep s u.length (u ++ r) = splitFrom sep (s.scan u) 0 r := by
  induction u generalizing s with
  | nil => rfl
  | cons c u ih => exact ih (s.next c)

theorem splitFrom_of_not_meets {sep : Text} {s : Nesting} {c : Char} {r : Text}
    (h : ¬ s.meets sep (c :: r)) :
    splitFrom sep s 0 (c :: r) = Text.grow c (splitFrom sep (s.next c) 0 r) := by
  cases sep <;> rw [splitFrom, if_neg h]

/-- At a separator, the text is divided. -/
theorem splitFrom_of_meets {sep : Text} (hsep : IsSeparator sep) {s : Nesting} {c : Char} {r : Text}
    (h : s.meets sep (c :: r)) :
    ∃ r', c :: r = sep ++ r' ∧ splitFrom sep s 0 (c :: r) = [] :: splitFrom sep top 0 r' := by
  obtain ⟨a, rest, rfl, _, hplain⟩ := hsep
  obtain ⟨rfl, _, r', hr⟩ := meets_iff.1 h
  rw [List.cons_append] at hr
  obtain ⟨rfl, rfl⟩ := List.cons.inj hr
  refine ⟨r', rfl, ?_⟩
  have hscan : (top.next a).scan rest = top := by
    rw [← scan_cons]
    exact scan_of_isPlain hplain 0
  rw [splitFrom, if_pos h, splitFrom_skip, hscan]

theorem intercalate_grow (sep : Text) (c : Char) (p : Text) (ps : List Text) :
    List.intercalate sep ((c :: p) :: ps) = c :: List.intercalate sep (p :: ps) := by
  cases ps with
  | nil => rw [List.intercalate_singleton, List.intercalate_singleton]
  | cons q ps => rw [List.intercalate_cons_cons, List.intercalate_cons_cons, List.cons_append,
      List.cons_append]

theorem prefix_intercalate (sep p : Text) (ps : List Text) : p <+: List.intercalate sep (p :: ps) := by
  cases ps with
  | nil => exact ⟨[], by rw [List.append_nil, List.intercalate_singleton]⟩
  | cons q ps =>
    rw [List.intercalate_cons_cons, List.append_assoc]
    exact List.prefix_append p _

/-- A character before the first part is no separator there if it is none in the whole text. -/
theorem Parted.grow {sep : Text} {s : Nesting} {c : Char} {p : Text} {ps : List Text}
    (h : Parted sep (s.next c) (p :: ps))
    (hm : ¬ s.meets sep (c :: List.intercalate sep (p :: ps))) : Parted sep s ((c :: p) :: ps) := by
  have hfree : ¬ s.meets sep (c :: p) := by
    intro hp
    obtain ⟨hs, hc, hpre⟩ := meets_iff.1 hp
    -- the separator would begin the whole, not only the first part
    have hwhole := prefix_intercalate sep (c :: p) ps
    rw [intercalate_grow] at hwhole
    exact hm (meets_iff.2 ⟨hs, hc, hpre.trans hwhole⟩)
  cases ps with
  | nil => exact ⟨hfree, h⟩
  | cons q ps => exact ⟨⟨hfree, h.1⟩, h.2⟩

/-- What a text is divided into, with the text itself. -/
theorem splitFrom_spec {sep : Text} (hsep : IsSeparator sep) (s : Nesting) (t : Text) :
    Parted sep s (splitFrom sep s 0 t) ∧ List.intercalate sep (splitFrom sep s 0 t) = t := by
  induction hn : t.length using Nat.strongRecOn generalizing s t with
  | ind n ih =>
    cases t with
    | nil => exact ⟨trivial, rfl⟩
    | cons c r =>
      by_cases hm : s.meets sep (c :: r)
      · obtain ⟨r', hr, hsplit⟩ := splitFrom_of_meets hsep hm
        have hlt : r'.length < n := by
          obtain ⟨a, rest, rfl, _⟩ := hsep
          rw [← hn, hr, List.length_append, List.length_cons]
          omega
        obtain ⟨hparted, hjoin⟩ := ih r'.length hlt top r' rfl
        rw [hsplit]
        cases hps : splitFrom sep top 0 r' with
        | nil =>
          rw [hps] at hparted
          exact hparted.elim
        | cons q ps =>
          rw [hps] at hparted hjoin
          refine ⟨⟨trivial, (meets_iff.1 hm).1, hparted⟩, ?_⟩
          rw [List.intercalate_cons_cons, hjoin, hr]
          rfl
      · have hlt : r.length < n := by rw [← hn, List.length_cons]; omega
        obtain ⟨hparted, hjoin⟩ := ih r.length hlt (s.next c) r rfl
        rw [splitFrom_of_not_meets hm]
        cases hps : splitFrom sep (s.next c) 0 r with
        | nil =>
          rw [hps] at hparted
          exact hparted.elim
        | cons q ps =>
          rw [hps] at hparted hjoin
          refine ⟨hparted.grow (by rwa [hjoin]), ?_⟩
          rw [Text.grow, intercalate_grow, hjoin]

/-! ## From the parts to the text -/

/-- A beginning of two texts ends in the first, or goes on into the second. -/
theorem prefix_append_cases {sep t x : Text} (h : sep <+: t ++ x) :
    sep <+: t ∨ ∃ d u w, sep = t ++ d :: u ∧ x = d :: (u ++ w) := by
  rcases List.prefix_or_prefix_of_prefix h (List.prefix_append t x) with h' | ⟨u, rfl⟩
  · exact Or.inl h'
  · cases u with
    | nil =>
      rw [List.append_nil]
      exact Or.inl (List.prefix_refl t)
    | cons d u =>
      obtain ⟨w, hw⟩ := (List.prefix_append_right_inj t).1 h
      exact Or.inr ⟨d, u, w, rfl, hw.symm⟩

/-- A separator that begins in the part before another one would overlap it. -/
theorem not_meets_append {sep : Text} (hsep : IsSeparator sep) {s : Nesting} {c : Char} {t r : Text}
    (h : ¬ s.meets sep (c :: t)) : ¬ s.meets sep (c :: (t ++ (sep ++ r))) := by
  intro hm
  obtain ⟨hs, hc, hp⟩ := meets_iff.1 hm
  rcases prefix_append_cases (t := c :: t) hp with hp' | ⟨d, u, w, hu, hw⟩
  · exact h (meets_iff.2 ⟨hs, hc, hp'⟩)
  · -- then the separator goes on with its own first character
    obtain ⟨a, rest, rfl, ha, _⟩ := hsep
    have had : a = d := (List.cons.inj hw).1
    refine ha ?_
    rw [(List.cons.inj hu).2, had]
    simp

theorem splitFrom_of_free {sep : Text} {s : Nesting} {t : Text} (h : Free sep s t) :
    splitFrom sep s 0 t = [t] := by
  induction t generalizing s with
  | nil => rfl
  | cons c t ih => rw [splitFrom_of_not_meets h.1, ih h.2, Text.grow]

theorem splitFrom_append {sep : Text} (hsep : IsSeparator sep) {s : Nesting} {t : Text}
    (h : Free sep s t) (ht : s.scan t = top) (r : Text) :
    splitFrom sep s 0 (t ++ (sep ++ r)) = t :: splitFrom sep top 0 r := by
  induction t generalizing s with
  | nil =>
    have hm : ∃ c u, sep ++ r = c :: u ∧ s.meets sep (c :: u) := by
      obtain ⟨a, rest, rfl, _, hplain⟩ := hsep
      exact ⟨a, rest ++ r, rfl, meets_iff.2 ⟨ht, hplain a List.mem_cons_self, List.prefix_append _ _⟩⟩
    obtain ⟨c, u, hcu, hm⟩ := hm
    obtain ⟨r', hr, hsplit⟩ := splitFrom_of_meets hsep hm
    rw [← hcu] at hr
    rw [List.nil_append, hcu, hsplit, List.append_cancel_left hr]
  | cons c t ih =>
    rw [List.cons_append, splitFrom_of_not_meets (not_meets_append hsep h.1), ih h.2 ht, Text.grow]

/-- Parts that were put together are found again. -/
theorem splitFrom_intercalate {sep : Text} (hsep : IsSeparator sep) {s : Nesting} {ps : List Text}
    (h : Parted sep s ps) : splitFrom sep s 0 (List.intercalate sep ps) = ps := by
  induction ps generalizing s with
  | nil => exact h.elim
  | cons p ps ih =>
    cases ps with
    | nil => rw [List.intercalate_singleton, splitFrom_of_free h]
    | cons q ps =>
      obtain ⟨hp, hscan, hps⟩ := h
      rw [List.intercalate_cons_cons, List.append_assoc, splitFrom_append hsep hp hscan, ih hps]

end Nesting

end ComponentLang
