import ComponentLang.Label
import ComponentLang.Proofs.Text.Trim
import Mathlib.Tactic.SplitIfs

/-!
# Texts written line by line

* `line_of_visible` : a line with a visible end is read as it stands;
* `map_dropReturns_lines_unlines` : so are all lines of a text of such lines;
* `inset`, `pairLine` : an indented line, and one with a pair;
* `IsKey` : what can be the key of such a pair (`splitPair?_pairLine`).
-/

namespace ComponentLang.Text

/-! ## Lines that are read as they stand -/

/-- A visible text at the end of a line keeps it as it is. -/
theorem line_of_visible {lead core : Text} (hlead : '\n' ∉ lead) (hcore : ∀ c ∈ core, ¬ isBlank c)
    (hne : core ≠ []) : '\n' ∉ lead ++ core ∧ dropReturns (lead ++ core) = lead ++ core := by
  refine ⟨fun hfeed => ?_, dropReturns_of_trimmed (trimmed_of_visible hcore) hne⟩
  rcases List.mem_append.1 hfeed with hfeed | hfeed
  · exact hlead hfeed
  · exact hcore _ hfeed (by decide)

/-- A trimmed text at the end of a line keeps it as it is. -/
theorem line_of_trimmed {lead core : Text} (hlead : '\n' ∉ lead) (hfeed : '\n' ∉ core)
    (hcore : Trimmed core) (hne : core ≠ []) :
    '\n' ∉ lead ++ core ∧ dropReturns (lead ++ core) = lead ++ core :=
  ⟨List.not_mem_append hlead hfeed, dropReturns_of_trimmed hcore hne⟩

/-- Lines that are read as they stand make a text of these lines. Where there are none, it has one line
with nothing in it. -/
theorem map_dropReturns_lines_unlines {ls : List Text}
    (h : ∀ l ∈ ls, '\n' ∉ l ∧ dropReturns l = l) :
    (lines (unlines ls)).map dropReturns = if ls = [] then [[]] else ls := by
  split_ifs with hnil
  · rw [hnil]
    rfl
  · rw [lines_unlines hnil fun l hl => (h l hl).1]
    exact (List.map_congr_left fun l hl => (h l hl).2).trans (List.map_id _)

/-! ## Indented lines -/

/-- The line with four spaces in front. -/
def inset (l : Text) : Text := "    ".toList ++ l

theorem Trimmed.startsBlank {l : Text} (h : Trimmed l) : startsBlank l = false := by
  cases l with
  | nil => rfl
  | cons c l => exact eq_false_of_ne_true (h.1 c rfl)

@[simp] theorem startsBlank_inset (l : Text) : startsBlank (inset l) = true := rfl

@[simp] theorem trim_inset (l : Text) : trim (inset l) = trim l :=
  trim_blank_append (blank_replicate 4) l

theorem map_trim_inset {ls : List Text} (h : ∀ l ∈ ls, Trimmed l) : (ls.map inset).map trim = ls := by
  rw [List.map_map]
  exact (List.map_congr_left fun l hl => (trim_inset l).trans (h l hl).trim).trans (List.map_id _)

/-! ## Pairs -/

/-- What stands before the colon of a pair: a trimmed text on one line without a colon. -/
structure IsKey (k : Text) : Prop where
  trimmed : Trimmed k
  colon : ':' ∉ k
  feed : '\n' ∉ k

instance (k : Text) : Decidable (IsKey k) :=
  decidable_of_iff (Trimmed k ∧ ':' ∉ k ∧ '\n' ∉ k)
    ⟨fun ⟨htrimmed, hcolon, hfeed⟩ => ⟨htrimmed, hcolon, hfeed⟩,
      fun h => ⟨h.trimmed, h.colon, h.feed⟩⟩

/-- The indented line of a pair. -/
def pairLine (e : Text × Text) : Text := inset (e.1 ++ ':' :: ' ' :: e.2)

variable {e : Text × Text}

/-- The first colon of the line stands behind the key, and nothing but the value behind that. -/
theorem trim_pairLine (hkey : Trimmed e.1) (hvalue : Trimmed e.2) :
    ∃ r, trim (pairLine e) = e.1 ++ ':' :: r ∧ trim r = e.2 := by
  obtain ⟨r, hr, htrim⟩ := exists_trim_colon hkey (' ' :: e.2)
  have htrim' : trim (' ' :: e.2) = e.2 :=
    (trim_blank_append (blank_replicate 1) e.2).trans hvalue.trim
  exact ⟨r, (trim_inset _).trans hr, htrim.trans htrim'⟩

theorem trim_pairLine_ne_nil (hkey : Trimmed e.1) (hvalue : Trimmed e.2) :
    trim (pairLine e) ≠ [] := by
  obtain ⟨r, hr, _⟩ := trim_pairLine hkey hvalue
  rw [hr]
  exact List.append_ne_nil_of_right_ne_nil _ (List.cons_ne_nil _ _)

theorem splitPair?_pairLine (hkey : IsKey e.1) (hvalue : Trimmed e.2) :
    splitPair? (trim (pairLine e)) = some e := by
  obtain ⟨r, hr, htrim⟩ := trim_pairLine hkey.trimmed hvalue
  rw [splitPair?, hr, splitFirst?_append hkey.colon]
  show some (trim e.1, trim r) = some e
  rw [htrim, hkey.trimmed.trim]

/-- If there is no value, the line ends in a space. -/
theorem line_pairLine (hkey : IsKey e.1) (hvalue : Trimmed e.2) (hfeed : '\n' ∉ e.2) :
    '\n' ∉ pairLine e ∧ dropReturns (pairLine e) = pairLine e := by
  have hassoc : pairLine e = ("    ".toList ++ (e.1 ++ [':', ' '])) ++ e.2 := by
    simp [pairLine, inset]
  have hlead : '\n' ∉ "    ".toList ++ (e.1 ++ [':', ' ']) :=
    List.not_mem_append (by decide) (List.not_mem_append hkey.feed (by decide))
  rw [hassoc]
  by_cases hnil : e.2 = []
  · have hlast : "    ".toList ++ (e.1 ++ [':', ' ']) = ("    ".toList ++ (e.1 ++ [':'])) ++ [' '] := by
      simp only [List.append_assoc, List.cons_append, List.nil_append]
    rw [hnil, List.append_nil]
    refine ⟨hlead, dropReturns_of_not_endsWith ?_⟩
    rw [hlast, endsWith, List.getLast?_concat]
    decide
  · exact line_of_trimmed hlead hfeed hvalue hnil

end ComponentLang.Text
