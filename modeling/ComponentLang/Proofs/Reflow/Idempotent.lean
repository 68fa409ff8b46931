import ComponentLang.Proofs.Depth.Ladder
import ComponentLang.Proofs.Reflow.Line

/-!
# Laying out a source twice

* `rungs unit d` : the widths that are open in the new layout at depth `d`. Without a positive unit
  all lines begin at the margin;
* `settle_rungs` : the lines of the new layout have the depths that they had in the old one;
* `Remark t` : the line `t` is only a comment, at any indentation;
* `lines_remarks`, `lines_lineText` : what the second run does with comments and with code;
* `lines_lines` : so it gives the lines that the first run gave;
* `reflow_reflow` : and the same source.
-/

namespace ComponentLang

namespace Reflow

open Text (Blank Trimmed trim)

/-! ## Depths -/

/-- The widths that are open at depth `d` in the new layout. -/
def rungs (unit : Int) (d : Nat) : List Int := if 0 < unit then Depth.ladder unit d else []

theorem length_indent (unit : Int) (d : Nat) : (indent unit d).length = (d * unit).toNat :=
  List.length_replicate

theorem blank_indent (unit : Int) (d : Nat) : Blank (indent unit d) := Text.blank_replicate _

theorem indent_of_nonpos {unit : Int} (hu : ¬ 0 < unit) (d : Nat) : indent unit d = [] := by
  have hle : (d : Int) * unit ≤ 0 := Int.mul_nonpos_of_nonneg_of_nonpos (by omega) (by omega)
  rw [indent, Int.toNat_of_nonpos hle]
  rfl

theorem indent_rungs (unit : Int) (d : Nat) : indent unit (rungs unit d).length = indent unit d := by
  rw [rungs]
  split_ifs with hu
  · rw [Depth.length_ladder]
  · rw [indent_of_nonpos hu, indent_of_nonpos hu]

/-- The lines of the new layout have the depths that they had. -/
theorem settle_rungs (unit : Int) {d e : Nat} (h : e ≤ d + 1) :
    Depth.settle (rungs unit d) (indent unit e).length = rungs unit e := by
  rw [rungs, rungs]
  split_ifs with hu
  · have hnonneg : 0 ≤ (e : Int) * unit := Int.mul_nonneg (by omega) (by omega)
    rw [length_indent, Int.toNat_of_nonneg hnonneg]
    exact Depth.settle_ladder hu h
  · rw [indent_of_nonpos hu]
    rfl

/-! ## Comments -/

/-- The text is a line that is only a comment, at any indentation. -/
structure Remark (t : Text) : Prop where
  ne_nil : t ≠ []
  trimmed : Trimmed t
  noCode : ∀ lead, Blank lead → readLine? (lead ++ t) = none

theorem remark_trim {line : Text} (h : readLine? line = none) (hne : trim line ≠ []) :
    Remark (trim line) :=
  ⟨hne, Text.trimmed_trim line, fun _ hlead => readLine?_comment h hne hlead⟩

/-- Comments wait for the code after them, without their indentation. -/
theorem lines_remarks (unit : Int) (stack : List Int) {lead : Text} (hlead : Blank lead)
    {remarks : List Text} (h : ∀ t ∈ remarks, Remark t) (pending rest : List Text) :
    lines unit stack pending (remarks.map (lead ++ ·) ++ rest) =
      lines unit stack (pending ++ remarks) rest := by
  induction remarks generalizing pending with
  | nil => rw [List.map_nil, List.nil_append, List.append_nil]
  | cons t remarks ih =>
    have ht := h t List.mem_cons_self
    have htrim := Text.trim_eq hlead ht.trimmed Text.blank_nil
    rw [List.append_nil] at htrim
    rw [List.map_cons, List.cons_append, lines, ht.noCode lead hlead]
    dsimp only
    rw [htrim, Text.nonempty?, if_neg ht.ne_nil, ih fun u hu => h u (List.mem_cons_of_mem _ hu),
      List.append_assoc]
    rfl

/-- A line without code adds a comment to those that wait, if it holds one. -/
theorem remark_pending {line : Text} (h : readLine? line = none) {pending : List Text}
    (hpending : ∀ t ∈ pending, Remark t) :
    ∀ t ∈ pending ++ (Text.nonempty? (trim line)).toList, Remark t := by
  intro t ht
  rcases List.mem_append.1 ht with ht | ht
  · exact hpending t ht
  · rw [Text.nonempty?] at ht
    split_ifs at ht with hnil
    · cases ht
    · rw [List.mem_singleton.1 ht]
      exact remark_trim h hnil

theorem readLine?_nil : readLine? [] = none := readLine?_of_blank Text.blank_nil

theorem lines_end (unit : Int) (stack : List Int) (pending : List Text) :
    lines unit stack pending [[]] = pending := by
  rw [lines, readLine?_nil]
  exact List.append_nil pending

/-! ## Lines -/

/-- The second run reads a new line of code like the first run read the old one. -/
theorem lines_lineText (unit : Int) {line : Text} {c : Content} (h : readLine? line = some c)
    {d e : Nat} (hd : e ≤ d + 1) (pending rest : List Text) :
    lines unit (rungs unit d) pending ((indent unit e ++ lineText c) :: rest) =
      (pending ++ [lineText c]).map (indent unit e ++ ·) ++ lines unit (rungs unit e) [] rest := by
  obtain ⟨c', hread, hwidth, _, hline⟩ := readLine?_lineText h (blank_indent unit e)
  rw [lines, hread]
  dsimp only
  rw [hwidth, settle_rungs unit hd, indent_rungs, hline]

/-- **The lines of the new layout stay as they are.** -/
theorem lines_lines (unit : Int) (ls : List Text) (stack : List Int) (pending : List Text)
    (hpending : ∀ t ∈ pending, Remark t) :
    lines unit (rungs unit stack.length) [] (lines unit stack pending ls ++ [[]]) =
      lines unit stack pending ls := by
  induction ls generalizing stack pending with
  | nil =>
    have hread := lines_remarks unit (rungs unit stack.length) Text.blank_nil hpending [] [[]]
    rw [lines]
    simpa [lines_end] using hread
  | cons line rest ih =>
    rw [lines]
    cases hread : readLine? line with
    | none => exact ih stack _ (remark_pending hread hpending)
    | some c =>
      dsimp only
      have hdepth := Depth.length_settle_le stack c.width
      generalize Depth.settle stack c.width = stack' at hdepth ⊢
      -- the comments before the line are taken up first, then the line itself
      rw [List.map_append, List.append_assoc, List.append_assoc,
        lines_remarks unit _ (blank_indent unit _) hpending, List.map_singleton,
        List.singleton_append, lines_lineText unit hread hdepth,
        ih stack' [] (fun t ht => by cases ht)]
      simp

/-! ## Sources -/

theorem onOneLine_lineText {line : Text} {c : Content} (h : readLine? line = some c)
    (hline : '\n' ∉ line) : '\n' ∉ lineText c := by
  obtain ⟨htext, hraw⟩ := readLine?_subset h
  have hcode : '\n' ∉ codeText c.text := by
    intro hmem
    rcases mem_codeText hmem with hmem | hmem
    · exact absurd hmem (by decide)
    · exact hline (htext hmem)
  have hcomment : '\n' ∉ commentText c := by
    intro hmem
    have hdrop := List.mem_of_mem_drop (Text.trim_subset _ hmem)
    exact hline (hraw (Text.trim_subset _ hdrop))
  rw [lineText]
  split_ifs
  · exact hcode
  · simpa using ⟨hcode, hcomment⟩

theorem onOneLine_indent (unit : Int) (d : Nat) : '\n' ∉ indent unit d := by
  intro hmem
  exact absurd (List.eq_of_mem_replicate hmem) (by decide)

/-- No line of the new layout is broken. -/
theorem onOneLine_lines (unit : Int) (ls : List Text) (hls : ∀ l ∈ ls, '\n' ∉ l)
    (stack : List Int) (pending : List Text) (hpending : ∀ t ∈ pending, '\n' ∉ t) :
    ∀ l ∈ lines unit stack pending ls, '\n' ∉ l := by
  induction ls generalizing stack pending with
  | nil => exact hpending
  | cons line rest ih =>
    have hline := hls line List.mem_cons_self
    have hrest : ∀ l ∈ rest, '\n' ∉ l := fun l hl => hls l (List.mem_cons_of_mem _ hl)
    rw [lines]
    cases hread : readLine? line with
    | none =>
      dsimp only
      refine ih hrest stack _ fun t ht => ?_
      rcases List.mem_append.1 ht with ht | ht
      · exact hpending t ht
      · rw [Text.nonempty?] at ht
        split_ifs at ht
        · cases ht
        · rw [List.mem_singleton.1 ht]
          exact fun hmem => hline (Text.trim_subset line hmem)
    | some c =>
      dsimp only
      intro l hl
      rcases List.mem_append.1 hl with hl | hl
      · obtain ⟨t, ht, rfl⟩ := List.mem_map.1 hl
        have ht : '\n' ∉ t := by
          rcases List.mem_append.1 ht with ht | ht
          · exact hpending t ht
          · rw [List.mem_singleton.1 ht]
            exact onOneLine_lineText hread hline
        rw [List.mem_append, not_or]
        exact ⟨onOneLine_indent _ _, ht⟩
      · exact ih hrest _ [] (fun t ht => by cases ht) l hl

end Reflow

/-- **Laying out a source a second time changes nothing.** -/
theorem reflow_reflow (unit : Int) (source : Text) :
    reflow unit (reflow unit source) = reflow unit source := by
  have hsource : ∀ l ∈ Text.lines source, '\n' ∉ l := fun l hl => Text.not_mem_of_mem_pieces hl
  have hlines := Reflow.onOneLine_lines unit (Text.lines source) hsource [] [] (fun t ht => by cases ht)
  have htwice := Reflow.lines_lines unit (Text.lines source) [] [] (fun t ht => by cases ht)
  have hmargin : Reflow.rungs unit ([] : List Int).length = [] := by
    rw [Reflow.rungs]
    split_ifs <;> rfl
  rw [hmargin] at htwice
  rw [reflow, reflow, Text.lines_flatMap hlines, htwice]

end ComponentLang
