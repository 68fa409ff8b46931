import ComponentLang.Proofs.Nesting.Split
import ComponentLang.Proofs.Text.Trim

/-!
# Blanks around the parts of a text

A separator without blanks divides a text in the same way, whatever blanks stand around its parts.

* `free_trim`, `scan_trim` : blanks at the ends of a part do not matter for a scan;
* `Parted.of_map_trim` : so parts that differ in such blanks only are parts alike;
* `exists_parts_trimStart`, `exists_parts_trimEnd`, `exists_parts_spaced` : blanks that are cut at the
  ends of a text, or stand around its separators, are cut or stand at the ends of its parts.
-/

namespace ComponentLang

open Text (Blank Trimmed trim isBlank)

namespace Nesting

theorem isPlain_of_isBlank {c : Char} (h : isBlank c) : isPlain c := by
  rw [isPlain, Bool.not_eq_true', Bool.or_eq_false_iff, Bool.or_eq_false_iff, isQuoteMark, isOpener,
    isCloser]
  have hne : ∀ d : Char, isBlank d = false → decide (c = d) = false := by
    intro d hd
    rw [decide_eq_false_iff_not]
    rintro rfl
    rw [hd] at h
    cases h
  simp only [hne '\x22' (by decide), hne '\x27' (by decide), hne '\x60' (by decide),
    hne '(' (by decide), hne '[' (by decide), hne '\x7b' (by decide), hne ')' (by decide),
    hne ']' (by decide), hne '\x7d' (by decide), Bool.or_false, and_self]

theorem scan_blank {b : Text} (h : Blank b) : top.scan b = top :=
  scan_of_isPlain (fun c hc => isPlain_of_isBlank (h c hc)) 0

/-- A string that is open was opened by a quote. -/
def Marked : Nesting → Prop
  | .plain _ => True
  | .quoted _ q => isQuoteMark q
  | .escaped _ q => isQuoteMark q

theorem Marked.next {s : Nesting} (h : s.Marked) (c : Char) : (s.next c).Marked := by
  cases s with
  | plain d =>
    rw [Nesting.next]
    split_ifs with hq
    · exact hq
    · trivial
    · trivial
    · trivial
  | quoted d q =>
    rw [Nesting.next]
    split_ifs
    · exact h
    · trivial
    · exact h
  | escaped d q => exact h

theorem Marked.scan {s : Nesting} (h : s.Marked) (t : Text) : (s.scan t).Marked := by
  induction t generalizing s with
  | nil => exact h
  | cons c t ih => exact ih (h.next c)

/-- Blanks do not lead back to the top level. -/
theorem eq_top_of_scan_blank {s : Nesting} (hs : s.Marked) {b : Text} (hb : Blank b)
    (h : s.scan b = top) : s = top := by
  induction b generalizing s with
  | nil => exact h
  | cons c b ih =>
    have hc := hb c List.mem_cons_self
    have hnext := ih (hs.next c) (fun d hd => hb d (List.mem_cons_of_mem _ hd)) h
    cases s with
    | plain d => rwa [next_of_isPlain (isPlain_of_isBlank hc)] at hnext
    | quoted d q =>
      -- a blank closes no string, since it is no quote
      have hcq : c ≠ q := by
        rintro rfl
        have hplain := isPlain_of_isBlank hc
        rw [isPlain, show isQuoteMark c = true from hs] at hplain
        cases hplain
      rw [Nesting.next] at hnext
      split_ifs at hnext
      · cases hnext
      · cases hnext
    | escaped d q => cases hnext

theorem scan_trim (t : Text) : top.scan (trim t) = top ↔ top.scan t = top := by
  obtain ⟨lead, tail, hlead, htail, ht⟩ := Text.exists_pad t
  have hscan := congrArg top.scan ht
  rw [scan_append, scan_append, scan_blank hlead] at hscan
  rw [hscan]
  constructor
  · intro h
    rw [h, scan_blank htail]
  · exact eq_top_of_scan_blank (Marked.scan (s := top) trivial _) htail

section

variable {sep : Text} (hsep : IsSeparator sep) (hvis : ∀ c ∈ sep, ¬ isBlank c)
include hsep hvis

theorem not_meets_blank {c : Char} (hc : isBlank c) (s : Nesting) (r : Text) :
    ¬ s.meets sep (c :: r) := by
  intro hm
  obtain ⟨a, rest, rfl, _⟩ := hsep
  obtain ⟨_, _, w, hw⟩ := meets_iff.1 hm
  have hac : a = c := (List.cons.inj hw).1
  exact hvis a List.mem_cons_self (hac ▸ hc)

theorem free_blank (s : Nesting) {b : Text} (hb : Blank b) : Free sep s b := by
  induction b generalizing s with
  | nil => trivial
  | cons c b ih =>
    exact ⟨not_meets_blank hsep hvis (hb c List.mem_cons_self) s b,
      ih (s.next c) fun d hd => hb d (List.mem_cons_of_mem _ hd)⟩

theorem free_append_blank {s : Nesting} {t b : Text} (ht : Free sep s t) (hb : Blank b) :
    Free sep s (t ++ b) := by
  induction t generalizing s with
  | nil => exact free_blank hsep hvis s hb
  | cons c t ih =>
    refine ⟨fun hm => ?_, ih ht.2⟩
    obtain ⟨hs, hc, hp⟩ := meets_iff.1 hm
    rcases prefix_append_cases (t := c :: t) hp with hp' | ⟨d, u, w, hu, hw⟩
    · exact ht.1 (meets_iff.2 ⟨hs, hc, hp'⟩)
    · -- then a blank would belong to the separator
      exact hvis d (by rw [hu]; simp) (hb d (by rw [hw]; simp))

theorem free_blank_append {t b : Text} (hb : Blank b) (ht : Free sep top t) :
    Free sep top (b ++ t) := by
  induction b with
  | nil => exact ht
  | cons c b ih =>
    have hc := hb c List.mem_cons_self
    refine ⟨not_meets_blank hsep hvis hc top _, ?_⟩
    rw [top, next_of_isPlain (isPlain_of_isBlank hc)]
    exact ih fun d hd => hb d (List.mem_cons_of_mem _ hd)

theorem free_trim (t : Text) : Free sep top (trim t) ↔ Free sep top t := by
  obtain ⟨lead, tail, hlead, htail, ht⟩ := Text.exists_pad t
  constructor
  · intro h
    rw [ht]
    exact free_blank_append hsep hvis hlead (free_append_blank hsep hvis h htail)
  · intro h
    rw [ht] at h
    have hright := h.right
    rw [scan_blank hlead] at hright
    exact hright.left

/-- Whether texts are the parts of a whole does not depend on the blanks at their ends. -/
theorem Parted.of_map_trim {ps ps' : List Text} (h : Parted sep top ps)
    (heq : ps'.map trim = ps.map trim) : Parted sep top ps' := by
  induction ps generalizing ps' with
  | nil => exact h.elim
  | cons p ps ih =>
    obtain ⟨p', ps', rfl, hp, hps⟩ := List.map_eq_cons_iff.1 heq
    have hfree : Free sep top p → Free sep top p' := by
      rw [← free_trim hsep hvis p, ← free_trim hsep hvis p', hp]
      exact id
    cases ps with
    | nil =>
      rw [List.map_nil, List.map_eq_nil_iff] at hps
      rw [hps]
      exact hfree h
    | cons q ps =>
      obtain ⟨q', ps', rfl, hq, hps⟩ := List.map_eq_cons_iff.1 hps
      obtain ⟨hpfree, hscan, hrest⟩ := h
      refine ⟨hfree hpfree, ?_, ih hrest (by rw [List.map_cons, List.map_cons, hq, hps])⟩
      rwa [← scan_trim, hp, scan_trim]

end

/-! ## Changing the blanks -/

/-- The blanks at the start of a whole belong to its first part. -/
theorem exists_parts_trimStart (sep : Text) (hhead : ∃ c ∈ sep.head?, ¬ isBlank c) (p : Text)
    (ps : List Text) : ∃ ps', ps'.map trim = (p :: ps).map trim ∧
      List.intercalate sep ps' = Text.trimStart (List.intercalate sep (p :: ps)) := by
  refine ⟨Text.trimStart p :: ps, by rw [List.map_cons, List.map_cons, Text.trim_trimStart], ?_⟩
  cases ps with
  | nil => rw [List.intercalate_singleton, List.intercalate_singleton]
  | cons q ps =>
    obtain ⟨c, hc, hvis⟩ := hhead
    obtain ⟨rest, rfl⟩ := List.head?_eq_some_iff.1 hc
    rw [List.intercalate_cons_cons, List.intercalate_cons_cons, List.append_assoc,
      List.append_assoc, Text.trimStart_append_visible p]
    intro d hd
    rwa [← Option.some.inj hd]

/-- The blanks at the end of a whole belong to its last part. -/
theorem exists_parts_trimEnd (sep : Text) (hlast : ∃ c ∈ sep.getLast?, ¬ isBlank c) (p : Text)
    (ps : List Text) : ∃ ps', ps'.map trim = (p :: ps).map trim ∧
      List.intercalate sep ps' = Text.trimEnd (List.intercalate sep (p :: ps)) := by
  induction ps generalizing p with
  | nil =>
    refine ⟨[Text.trimEnd p], by rw [List.map_cons, List.map_cons, Text.trim_trimEnd], ?_⟩
    rw [List.intercalate_singleton, List.intercalate_singleton]
  | cons q ps ih =>
    obtain ⟨ps', hmap, hjoin⟩ := ih q
    obtain ⟨q', rest, rfl, _⟩ := List.map_eq_cons_iff.1 hmap
    refine ⟨p :: q' :: rest, congrArg (trim p :: ·) hmap, ?_⟩
    rw [List.intercalate_cons_cons, List.intercalate_cons_cons, hjoin, Text.trimEnd_append_visible]
    intro d hd
    obtain ⟨c, hc, hvis⟩ := hlast
    rw [List.getLast?_append, Option.mem_def.1 hc] at hd
    rwa [← Option.some.inj hd]

/-- Blanks on both sides of a separator belong to the parts beside it. -/
theorem exists_parts_spaced (sep p : Text) (ps : List Text) :
    ∃ ps', ps'.map trim = (p :: ps).map trim ∧
      List.intercalate sep ps' = List.intercalate (' ' :: (sep ++ [' '])) (p :: ps) := by
  induction ps generalizing p with
  | nil => exact ⟨[p], rfl, rfl⟩
  | cons q ps ih =>
    obtain ⟨ps', hmap, hjoin⟩ := ih q
    obtain ⟨q', rest, rfl, hq, hrest⟩ := List.map_eq_cons_iff.1 hmap
    have hpad : Text.Blank [' '] := Text.blank_replicate 1
    refine ⟨(p ++ [' ']) :: (' ' :: q') :: rest, ?_, ?_⟩
    · have hleft := Text.trim_append_blank hpad p
      have hright := Text.trim_blank_append hpad q'
      rw [List.singleton_append] at hright
      rw [List.map_cons, List.map_cons, hleft, hright, List.map_cons, List.map_cons, hq, hrest]
    · rw [List.intercalate_cons_cons, List.intercalate_cons_cons, intercalate_grow, hjoin]
      simp

end Nesting

end ComponentLang
