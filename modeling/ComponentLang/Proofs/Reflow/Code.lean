import ComponentLang.Proofs.Comment.Respaced
import ComponentLang.Proofs.Nesting.Padding
import ComponentLang.Proofs.Nesting.Rejoin
import ComponentLang.Reflow

/-!
# Code with spaced arrows

* `exists_parts_codeText` : the new code has the parts of the old one, up to blanks at their ends;
* `map_trim_split_codeText`, `codeText_codeText` : so it is divided alike, and nothing is left to do
  for a second time;
* `visible_codeText` : only blanks have changed;
* `respaced_codeText` : in the new code, quotes and slashes stand as they stood.
-/

namespace ComponentLang.Reflow

open Text (Blank Trimmed trim isBlank visible)
open Nesting (IsSeparator Parted)
open Comment (Neutral Respaced)

theorem arrow_eq : arrow = ['-', '>'] := rfl

theorem isSeparator_arrow : IsSeparator arrow := Nesting.isSeparator_arrow

theorem visible_arrow : ∀ c ∈ arrow, ¬ isBlank c := by
  rw [arrow_eq, List.forall_mem_cons, List.forall_mem_singleton]
  decide

theorem neutral_arrow : Neutral arrow := by
  rw [Neutral, arrow_eq, List.forall_mem_cons, List.forall_mem_singleton]
  decide

theorem parted_split (t : Text) : Parted arrow .top (Text.split arrow t) :=
  (Nesting.splitFrom_spec isSeparator_arrow .top t).1

theorem intercalate_split (t : Text) : List.intercalate arrow (Text.split arrow t) = t :=
  Nesting.intercalate_splitFrom arrow .top t

theorem split_ne_nil (t : Text) : Text.split arrow t ≠ [] :=
  Nesting.splitFrom_ne_nil arrow .top 0 t

/-- The parts of the new code, which differ from those of the old at most in blanks at the ends. -/
theorem exists_parts_codeText (t : Text) :
    ∃ ps, ps.map trim = (Text.split arrow t).map trim ∧ List.intercalate arrow ps = codeText t := by
  obtain ⟨p, ps, hsplit⟩ := List.exists_cons_of_ne_nil (split_ne_nil t)
  obtain ⟨ps₁, hmap₁, hjoin₁⟩ := Nesting.exists_parts_spaced arrow (trim p) (ps.map trim)
  obtain ⟨p₁, rest₁, rfl, _⟩ := List.map_eq_cons_iff.1 hmap₁
  obtain ⟨ps₂, hmap₂, hjoin₂⟩ :=
    Nesting.exists_parts_trimStart arrow ⟨'-', rfl, by decide⟩ p₁ rest₁
  rw [hmap₁] at hmap₂
  obtain ⟨p₂, rest₂, rfl, _⟩ := List.map_eq_cons_iff.1 hmap₂
  obtain ⟨ps₃, hmap₃, hjoin₃⟩ :=
    Nesting.exists_parts_trimEnd arrow ⟨'>', rfl, by decide⟩ p₂ rest₂
  refine ⟨ps₃, ?_, ?_⟩
  · have htrim : ((trim p :: ps.map trim).map trim) = (p :: ps).map trim := by
      rw [← List.map_cons, List.map_map]
      exact List.map_congr_left fun q _ => Text.trim_trim q
    rw [hmap₃, hmap₂, htrim, hsplit]
  · rw [hjoin₃, hjoin₂, hjoin₁, codeText, hsplit]
    rfl

theorem map_trim_split_codeText (t : Text) :
    (Text.split arrow (codeText t)).map trim = (Text.split arrow t).map trim := by
  obtain ⟨ps, hmap, hjoin⟩ := exists_parts_codeText t
  have hparted := (parted_split t).of_map_trim isSeparator_arrow visible_arrow hmap
  rw [← hjoin, Text.split, Nesting.splitFrom_intercalate isSeparator_arrow hparted, hmap]

/-- Spacing the arrows a second time changes nothing. -/
theorem codeText_codeText (t : Text) : codeText (codeText t) = codeText t := by
  rw [codeText, map_trim_split_codeText]
  rfl

theorem trimmed_codeText (t : Text) : Trimmed (codeText t) := Text.trimmed_trim _

/-! ## Only blanks change -/

theorem visible_intercalate {sep : Text} {ps ps' : List Text} (h : ps'.map trim = ps.map trim) :
    visible (List.intercalate sep ps') = visible (List.intercalate sep ps) := by
  induction ps generalizing ps' with
  | nil =>
    rw [List.map_nil, List.map_eq_nil_iff] at h
    rw [h]
  | cons p ps ih =>
    obtain ⟨p', ps', rfl, hp, hps⟩ := List.map_eq_cons_iff.1 h
    have hvis : visible p' = visible p := by rw [← Text.visible_trim p', hp, Text.visible_trim]
    cases ps with
    | nil =>
      rw [List.map_nil, List.map_eq_nil_iff] at hps
      rw [hps, List.intercalate_singleton, List.intercalate_singleton, hvis]
    | cons q ps =>
      obtain ⟨q', ps', rfl, _⟩ := List.map_eq_cons_iff.1 hps
      rw [List.intercalate_cons_cons, List.intercalate_cons_cons, Text.visible_append,
        Text.visible_append, Text.visible_append, Text.visible_append, hvis, ih hps]

theorem visible_codeText (t : Text) : visible (codeText t) = visible t := by
  obtain ⟨ps, hmap, hjoin⟩ := exists_parts_codeText t
  rw [← hjoin, visible_intercalate hmap, intercalate_split]

/-- The new code begins with the same character. -/
theorem head?_codeText {t : Text} (h : Trimmed t) : (codeText t).head? = t.head? := by
  rw [← Text.head?_visible (trimmed_codeText t).1, visible_codeText, Text.head?_visible h.1]

theorem mem_intercalate {c : Char} {sep : Text} {ps : List Text} (h : c ∈ List.intercalate sep ps) :
    c ∈ sep ∨ ∃ p ∈ ps, c ∈ p := by
  induction ps with
  | nil => cases h
  | cons p ps ih =>
    cases ps with
    | nil =>
      rw [List.intercalate_singleton] at h
      exact Or.inr ⟨p, List.mem_cons_self, h⟩
    | cons q ps =>
      rw [List.intercalate_cons_cons, List.append_assoc, List.mem_append, List.mem_append] at h
      rcases h with h | h | h
      · exact Or.inr ⟨p, List.mem_cons_self, h⟩
      · exact Or.inl h
      · exact (ih h).imp_right fun ⟨r, hr, hc⟩ => ⟨r, List.mem_cons_of_mem _ hr, hc⟩

theorem mem_intercalate_of_mem {c : Char} {p : Text} {ps : List Text} (hp : p ∈ ps) (hc : c ∈ p)
    (sep : Text) : c ∈ List.intercalate sep ps := by
  induction ps with
  | nil => cases hp
  | cons q ps ih =>
    rcases List.mem_cons.1 hp with rfl | hp
    · exact (Nesting.prefix_intercalate sep p ps).subset hc
    · cases ps with
      | nil => cases hp
      | cons r ps =>
        rw [List.intercalate_cons_cons]
        exact List.mem_append_right _ (ih hp)

/-- New code holds the characters of the old, and those of a spaced arrow. -/
theorem mem_codeText {c : Char} {t : Text} (h : c ∈ codeText t) : c ∈ " -> ".toList ∨ c ∈ t := by
  rcases mem_intercalate (Text.trim_subset _ h) with h | ⟨p, hp, hc⟩
  · exact Or.inl h
  · obtain ⟨q, hq, rfl⟩ := List.mem_map.1 hp
    have hmem := mem_intercalate_of_mem hq (Text.trim_subset q hc) arrow
    rw [intercalate_split] at hmem
    exact Or.inr hmem

/-! ## Quotes and slashes -/

/-- Nothing is cut at the end of a part that ends with a visible character. -/
theorem exists_lead {p : Text} (h : ∀ c ∈ p.getLast?, ¬ isBlank c) :
    ∃ lead, Blank lead ∧ p = lead ++ trim p := by
  obtain ⟨lead, tail, hlead, htail, hp⟩ := Text.exists_pad p
  rcases List.eq_nil_or_concat tail with rfl | ⟨init, c, rfl⟩
  · exact ⟨lead, hlead, by rwa [List.append_nil] at hp⟩
  · have hc : c ∈ p.getLast? := by rw [hp]; simp
    exact absurd (htail c (by simp)) (h c hc)

theorem mem_getLast?_append {c : Char} {t : Text} (u : Text) (h : c ∈ t.getLast?) :
    c ∈ (u ++ t).getLast? := by
  rw [List.getLast?_append, Option.mem_def.1 h]
  rfl

/-- Parts that differ in blanks at their ends make up texts that differ in blanks around arrows. -/
theorem respaced_intercalate {ps ps' : List Text} (hmap : ps'.map trim = ps.map trim)
    (hlast : ∀ c ∈ (List.intercalate arrow ps).getLast?, ¬ isBlank c)
    (hlast' : ∀ c ∈ (List.intercalate arrow ps').getLast?, ¬ isBlank c) {b b' : Text}
    (hb : Neutral b) (hne : b ≠ []) (hb' : Neutral b') (hne' : b' ≠ []) :
    Respaced (b ++ List.intercalate arrow ps) (b' ++ List.intercalate arrow ps') := by
  induction ps generalizing ps' b b' with
  | nil =>
    rw [List.map_nil, List.map_eq_nil_iff] at hmap
    rw [hmap]
    exact .run hb hne hb' hne' .nil
  | cons p ps ih =>
    obtain ⟨p', ps', rfl, hp, hps⟩ := List.map_eq_cons_iff.1 hmap
    cases ps with
    | nil =>
      rw [List.map_nil, List.map_eq_nil_iff] at hps
      subst hps
      rw [List.intercalate_singleton] at hlast hlast' ⊢
      rw [List.intercalate_singleton]
      obtain ⟨lead, hlead, heq⟩ := exists_lead hlast
      obtain ⟨lead', hlead', heq'⟩ := exists_lead hlast'
      rw [heq, heq', hp, ← List.append_assoc, ← List.append_assoc]
      exact .run (hb.append (Comment.neutral_of_blank hlead)) (by simp [hne])
        (hb'.append (Comment.neutral_of_blank hlead')) (by simp [hne']) (Comment.respaced_refl _)
    | cons q ps =>
      obtain ⟨q', ps', rfl, _⟩ := List.map_eq_cons_iff.1 hps
      obtain ⟨lead, tail, hlead, htail, heq⟩ := Text.exists_pad p
      obtain ⟨lead', tail', hlead', htail', heq'⟩ := Text.exists_pad p'
      rw [List.intercalate_cons_cons] at hlast hlast' ⊢
      rw [List.intercalate_cons_cons]
      -- the arrow and the blanks before it are the run of blanks before the next part
      have hrest := ih hps (fun c hc => hlast c (mem_getLast?_append _ hc))
        (fun c hc => hlast' c (mem_getLast?_append _ hc))
        ((Comment.neutral_of_blank htail).append neutral_arrow) (by simp [arrow])
        ((Comment.neutral_of_blank htail').append neutral_arrow) (by simp [arrow])
      have hrun := Respaced.run (hb.append (Comment.neutral_of_blank hlead)) (by simp [hne])
        (hb'.append (Comment.neutral_of_blank hlead')) (by simp [hne'])
        (hrest.append_left (trim p))
      rw [heq, heq', hp]
      simpa only [List.append_assoc] using hrun

/-- The code before and after its arrows were spaced, with a blank before either. -/
theorem respaced_codeText {t : Text} (h : Trimmed t) : Respaced (' ' :: t) (' ' :: codeText t) := by
  obtain ⟨ps, hmap, hjoin⟩ := exists_parts_codeText t
  have hblank : Neutral [' '] := Comment.neutral_of_blank (Text.blank_replicate 1)
  have hlast := h.2
  have hlast' := (trimmed_codeText t).2
  rw [← intercalate_split t] at hlast
  rw [← hjoin] at hlast'
  have hresp := respaced_intercalate hmap hlast hlast' hblank (by simp) hblank (by simp)
  rwa [intercalate_split, hjoin] at hresp

end ComponentLang.Reflow
