import ComponentLang.Proofs.Reflow.Tokens

/-!
# What a new layout keeps

Only white space is added or left out by a new layout, and only blank lines are.

* `visible_lines` : the visible characters of a text are those of its lines;
* `visible_lineText` : a line of code keeps those of its code and of its comment;
* `map_visible_lines` : so each line that is not blank has a line in the new layout, in order;
* `visible_reflow` : and the whole keeps all that can be seen.
-/

namespace ComponentLang

open Text (trim visible Blank)

/-! ## Lines of a text -/

namespace Text

theorem visible_of_blank {t : Text} (h : Blank t) (u : Text) : visible (t ++ u) = visible u := by
  rw [visible_append, visible_eq_nil.2 h, List.nil_append]

/-- Between the lines of a text nothing can be seen. -/
theorem visible_lines (t : Text) : (lines t).flatMap visible = visible t := by
  induction t with
  | nil => rfl
  | cons c t ih =>
    obtain ⟨l, ls, hls⟩ := List.exists_cons_of_ne_nil (pieces_ne_nil '\n' t)
    rw [lines, pieces]
    rw [lines, hls] at ih
    split_ifs with hc
    · have hblank : Blank ['\n'] := by
        intro d hd
        rw [List.mem_singleton.1 hd]
        decide
      rw [hls, List.flatMap_cons, ih, hc]
      exact (visible_of_blank hblank t).symm
    · have hgrow : visible (c :: l) = visible [c] ++ visible l := visible_append [c] l
      rw [hls, grow, List.flatMap_cons, hgrow, List.append_assoc, ← List.flatMap_cons, ih,
        ← visible_append]
      rfl

/-- On blank lines neither. -/
theorem visible_filter_lines (ls : List Text) :
    (ls.filter fun l => trim l ≠ []).flatMap visible = ls.flatMap visible := by
  induction ls with
  | nil => rfl
  | cons l ls ih =>
    by_cases hl : trim l = []
    · have hblank : visible l = [] := visible_eq_nil.2 (trim_eq_nil.1 hl)
      simpa [hl, hblank] using ih
    · simpa [hl] using ih

end Text

namespace Reflow

/-! ## Lines of code -/

theorem raw_of_readLine? {line : Text} {c : Content} (h : readLine? line = some c) :
    c.raw = Text.dropReturns line := by
  unfold readLine? at h
  dsimp only at h
  split_ifs at h
  cases h
  rfl

/-- A line with code on it is not blank. -/
theorem trim_ne_nil_of_readLine? {line : Text} {c : Content} (h : readLine? line = some c) :
    trim line ≠ [] := by
  obtain ⟨_, _, _, hlayout⟩ := exists_layout h
  intro hnil
  have hprefix := isPrefix_text h
  rw [hnil, List.prefix_nil] at hprefix
  exact hlayout.text_ne_nil hprefix

/-- The code and the comment of a line are all that can be seen on it. -/
theorem visible_lineText {line : Text} {c : Content} (h : readLine? line = some c) :
    visible (lineText c) = visible line := by
  obtain ⟨rest, hrest⟩ := isPrefix_text h
  have hcomment : commentText c = trim rest := by
    rw [commentText, raw_of_readLine? h, Text.trim_dropReturns, ← hrest, List.drop_left]
  have hparts : visible (lineText c) = visible (codeText c.text) ++ visible (commentText c) := by
    rw [lineText]
    split_ifs with hnil
    · rw [hnil]
      exact (List.append_nil _).symm
    · have hgap := Text.visible_of_blank (Text.blank_replicate 1) (commentText c)
      rw [Text.visible_append]
      exact congrArg (visible (codeText c.text) ++ ·) hgap
  calc visible (lineText c) = visible c.text ++ visible rest := by
        rw [hparts, visible_codeText, hcomment, Text.visible_trim]
    _ = visible (trim line) := by rw [← Text.visible_append, hrest]
    _ = visible line := Text.visible_trim line

/-! ## Lines of the layout -/

/-- **Each line that is not blank has its line in the new layout.** Comments that wait come first. -/
theorem map_visible_lines (unit : Int) (ls : List Text) (stack : List Int) (pending : List Text) :
    (lines unit stack pending ls).map visible =
      pending.map visible ++ (ls.filter fun l => trim l ≠ []).map visible := by
  induction ls generalizing stack pending with
  | nil => simp [lines]
  | cons line rest ih =>
    rw [lines]
    cases hread : readLine? line with
    | none =>
      dsimp only
      rw [ih, List.map_append, List.append_assoc, Text.nonempty?, List.filter_cons]
      by_cases hline : trim line = []
      · simp [hline]
      · simp [hline, Text.visible_trim]
    | some c =>
      have hline := trim_ne_nil_of_readLine? hread
      have hindent : ∀ (d : Nat) (t : Text), visible (indent unit d ++ t) = visible t :=
        fun d t => Text.visible_of_blank (blank_indent unit d) t
      dsimp only
      rw [List.map_append, ih, List.map_map, List.map_append]
      simp [Function.comp_def, hindent, visible_lineText hread, hline]

end Reflow

/-- **A new layout keeps all that can be seen.** The new source has the visible characters of the old.
It has one line for each line of the old that is not blank, in the same order, and each of them has the
visible characters of the line that it stands for. -/
theorem visible_reflow (unit : Int) (source : Text) :
    visible (reflow unit source) = visible source ∧
    ∃ new, Text.lines (reflow unit source) = new ++ [[]] ∧
      new.map visible = ((Text.lines source).filter fun l => trim l ≠ []).map visible := by
  have hlines := Reflow.map_visible_lines unit (Text.lines source) [] []
  rw [List.map_nil, List.nil_append] at hlines
  refine ⟨?_, _, lines_reflow unit source, hlines⟩
  calc visible (reflow unit source)
      = (Reflow.lines unit [] [] (Text.lines source)).flatMap visible := by
        rw [← Text.visible_lines, lines_reflow, List.flatMap_append]
        exact List.append_nil _
    _ = ((Text.lines source).filter fun l => trim l ≠ []).flatMap visible := by
        rw [List.flatMap_def, hlines, ← List.flatMap_def]
    _ = visible source := by rw [Text.visible_filter_lines, Text.visible_lines]

end ComponentLang
