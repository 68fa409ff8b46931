import ComponentLang.Head
import ComponentLang.Proofs.Text.Trim

/-!
# What a head is read from

Blank lines and lines that begin with a hash say nothing in a head. Of any other line it counts what
it says between its blanks, and how many blanks there are before that.

* `outline t` : this of each line, in order;
* `cleanLine`, `parse_eq_addLines` : a head is read from the lines that have nothing but this;
* `parse_unlines_cleanLine` : so these lines make a text that gives the same head.
-/

namespace ComponentLang.Head

open Text (trim Trimmed isBlank indentWidth startsBlank dropReturns)

/-- The line is neither blank nor a comment. -/
def isCode (l : Text) : Bool := trim l ≠ [] && !Text.startsWith ['#'] (trim l)

/-- The indentation and the text of each line that is neither blank nor a comment. -/
def outline (t : Text) : List (Nat × Text) :=
  ((Text.lines t).filter isCode).map fun l => (indentWidth l, trim l)

/-- A line of a given indentation and text, and nothing more. -/
def cleanLine (e : Nat × Text) : Text := List.replicate e.1 ' ' ++ e.2

/-! ## Lines -/

theorem isCode_iff {l : Text} :
    isCode l ↔ trim l ≠ [] ∧ ¬ Text.startsWith ['#'] (trim l) := by
  simp [isCode]

theorem linePair?_eq_none {l : Text} (h : isCode l = false) : linePair? l = none := by
  rw [linePair?]
  split_ifs with hhash
  · rfl
  · have hnil : trim l = [] := by
      by_contra hne
      rw [isCode_iff.2 ⟨hne, hhash⟩] at h
      cases h
    rw [hnil]
    rfl

theorem linePair?_congr {l l' : Text} (h : trim l = trim l') : linePair? l = linePair? l' := by
  rw [linePair?, linePair?, h]

theorem startsBlank_eq (l : Text) : startsBlank l = decide (0 < indentWidth l) := by
  cases l with
  | nil => rfl
  | cons c l => cases hc : isBlank c <;> simp [startsBlank, indentWidth, hc]

theorem indentWidth_cleanLine (n : Nat) {t : Text} (ht : Trimmed t) :
    indentWidth (cleanLine (n, t)) = n := by
  rw [cleanLine, Text.indentWidth_append (Text.blank_replicate n) ht.1, List.length_replicate]

theorem trim_cleanLine (n : Nat) {t : Text} (ht : Trimmed t) : trim (cleanLine (n, t)) = t := by
  have h := Text.trim_eq (Text.blank_replicate n) ht Text.blank_nil
  rwa [List.append_nil] at h

/-! ## Texts -/

/-- Lines that say nothing may be left out, and so may blanks that do not count. -/
theorem addLines_cleanLine (h : Head) (current : Option Text) (ls : List Text) :
    addLines h current (ls.map dropReturns) =
      addLines h current (((ls.filter isCode).map fun l => (indentWidth l, trim l)).map cleanLine) := by
  induction ls generalizing h current with
  | nil => rfl
  | cons l ls ih =>
    have hpair : linePair? (dropReturns l) = linePair? l := linePair?_congr (Text.trim_dropReturns l)
    rw [List.map_cons, addLines, hpair]
    by_cases hl : isCode l
    · have hclean : linePair? (cleanLine (indentWidth l, trim l)) = linePair? l :=
        linePair?_congr (trim_cleanLine _ (Text.trimmed_trim l))
      have hblank : startsBlank (cleanLine (indentWidth l, trim l)) = startsBlank (dropReturns l) := by
        rw [startsBlank_eq, startsBlank_eq, indentWidth_cleanLine _ (Text.trimmed_trim l),
          Text.indentWidth_dropReturns (isCode_iff.1 hl).1]
      rw [List.filter_cons_of_pos hl, List.map_cons, List.map_cons, addLines, hclean, hblank]
      simp only [ih]
    · rw [List.filter_cons_of_neg hl, linePair?_eq_none (eq_false_of_ne_true hl)]
      exact ih h current

theorem parse_eq_addLines (t : Text) :
    parse t = addLines .empty none ((outline t).map cleanLine) := addLines_cleanLine _ _ _

/-- **The lines with nothing but what counts make a text that gives the same head.** -/
theorem parse_unlines_cleanLine (t : Text) :
    parse (Text.unlines ((outline t).map cleanLine)) = parse t := by
  rw [parse_eq_addLines t]
  by_cases hnil : outline t = []
  · rw [hnil]
    rfl
  have hentry : ∀ e ∈ outline t, Trimmed e.2 ∧ e.2 ≠ [] ∧ '\n' ∉ e.2 := by
    intro e he
    obtain ⟨l, hl, rfl⟩ := List.mem_map.1 he
    obtain ⟨hmem, hcode⟩ := List.mem_filter.1 hl
    exact ⟨Text.trimmed_trim l, (isCode_iff.1 hcode).1,
      fun h => Text.not_mem_of_mem_pieces hmem (Text.trim_subset l h)⟩
  have hlines : Text.lines (Text.unlines ((outline t).map cleanLine)) =
      (outline t).map cleanLine := by
    apply Text.lines_unlines (by simpa using hnil)
    intro l hl hfeed
    obtain ⟨e, he, rfl⟩ := List.mem_map.1 hl
    rcases List.mem_append.1 hfeed with h | h
    · exact absurd (List.eq_of_mem_replicate h) (by decide)
    · exact (hentry e he).2.2 h
  have hreturns : ((outline t).map cleanLine).map dropReturns = (outline t).map cleanLine := by
    rw [List.map_map]
    apply List.map_congr_left
    intro e he
    exact Text.dropReturns_of_trimmed (hentry e he).1 (hentry e he).2.1
  rw [parse, hlines, hreturns]

end ComponentLang.Head
