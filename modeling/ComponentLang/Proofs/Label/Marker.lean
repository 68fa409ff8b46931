import ComponentLang.Proofs.Text.Word
import ComponentLang.Proofs.Text.Written

/-!
# Where a line has a label

* `labelLine` : the line that gives a label and says nothing else (`label?_labelLine`,
  `line_labelLine`);
* `label?_append` : what stands before a marker makes no difference, if it has no dash;
* `label?_of_labelAt?` : a marker at the start is the first one;
* `heading?` : the name on a line that begins with a marker (`label?_of_heading?`).
-/

namespace ComponentLang

open Text (isBlank isWord trimStart)

theorem labelAt?_of_ne {c : Char} (hc : c ≠ '-') (t : Text) : labelAt? (c :: t) = none := by
  have hafter : Text.after? "--".toList (c :: t) = none := if_neg (Ne.symm hc)
  rw [labelAt?, hafter]
  rfl

theorem label?_append {a : Text} (h : '-' ∉ a) (t : Text) : label? (a ++ t) = label? t := by
  induction a with
  | nil => rfl
  | cons c a ih =>
    rw [List.mem_cons, not_or] at h
    rw [List.cons_append, label?, labelAt?_of_ne (Ne.symm h.1), Option.none_or, ih h.2]

theorem label?_of_labelAt? {t name : Text} (h : labelAt? t = some name) : label? t = some name := by
  cases t with
  | nil => cases h
  | cons c t => rw [label?, h, Option.some_or]

/-- The name on a label line, which begins with a marker. -/
def heading? (l : Text) : Option Text := labelAt? (trimStart l)

theorem label?_of_heading? {l name : Text} (h : heading? l = some name) : label? l = some name := by
  obtain ⟨lead, hlead, hl⟩ := Text.exists_trimStart l
  have hdash : '-' ∉ lead := fun hmem => absurd (hlead _ hmem) (by decide)
  rw [hl, label?_append hdash]
  exact label?_of_labelAt? h

/-- The line that gives a label. -/
def labelLine (name : Text) : Text := "-- label: ".toList ++ name

theorem labelAt?_labelLine (name : Text) :
    labelAt? (labelLine name) = Text.nonempty? ((trimStart name).takeWhile isWord) := rfl

section

variable {name : Text} (hne : name ≠ []) (h : ∀ c ∈ name, isWord c)

include hne h

theorem label?_labelLine : label? (labelLine name) = some name := by
  have hhead : ∀ c ∈ name.head?, ¬ isBlank c := fun c hc =>
    Text.not_isBlank_of_isWord (h c (List.mem_of_mem_head? hc))
  refine label?_of_labelAt? ?_
  rw [labelAt?_labelLine, Text.trimStart_of_head hhead, List.takeWhile_eq_self_iff.2 h,
    Text.nonempty?, if_neg hne]

theorem line_labelLine :
    '\n' ∉ labelLine name ∧ Text.dropReturns (labelLine name) = labelLine name :=
  Text.line_of_visible (by decide) (fun c hc => Text.not_isBlank_of_isWord (h c hc)) hne

end

end ComponentLang
