import ComponentLang.Proofs.Head.Merge
import ComponentLang.Proofs.Head.Outline

/-!
# Heads in two texts

A head may be given in two texts, one after the other, unless the second goes on with a section of the
first. It is then the merge of what the two give.

* `isPair` : the lines that a head is read from;
* `merge_addPair`, `merge_addLines` : lines may be added before a head is merged, or after;
* `exists_current` : of the lines before, only the section that is open counts for those after them;
* `addLines_of_margin` : and that does not count if these begin at the margin;
* `merge_parse` : heads are a monoid, and reading texts one after the other is merging.
-/

namespace ComponentLang.Head

open Text (trim startsBlank dropReturns)

/-! ## Lines with a pair -/

/-- The line is neither blank nor a comment, and it has a colon. -/
def isPair (l : Text) : Bool := isCode l && l.contains ':'

theorem linePair?_isSome (l : Text) : (linePair? l).isSome = isPair l := by
  have hcolon : ':' ∈ trim l ↔ ':' ∈ l := by
    rw [← List.count_pos_iff, ← List.count_pos_iff, Text.count_trim (by decide)]
  by_cases hl : isCode l
  · have hread : linePair? l = splitPair? (trim l) := if_neg (isCode_iff.1 hl).2
    rw [hread, splitPair?, Option.isSome_map, isPair, hl, Bool.true_and, Bool.eq_iff_iff,
      List.contains_iff_mem, Text.isSome_splitFirst?, hcolon]
  · have hl' := eq_false_of_ne_true hl
    rw [linePair?_eq_none hl', isPair, hl']
    rfl

/-! ## Lines and merges -/

theorem merge_addPair (h g : Head) (name key value : Text) :
    (h.merge g).addPair name key value = h.merge (g.addPair name key value) := by
  by_cases hlink : name = "link".toList
  · rw [addPair, addPair, if_pos hlink, if_pos hlink]
    exact (Head.mk.injEq ..).mpr ⟨rfl, rfl, List.append_assoc _ _ _⟩
  · -- the pair is taken up as a section of its own
    have hsection := Table.absorb_upsert combines_section h.sections g.sections name
      (Table.empty.insert key (unquote value))
    rw [addPair, addPair, if_neg hlink, if_neg hlink]
    exact (Head.mk.injEq ..).mpr ⟨rfl, hsection.symm, rfl⟩

theorem merge_insertField (h g : Head) (key value : Text) :
    { h.merge g with fields := (h.merge g).fields.insert key value } =
      h.merge { g with fields := g.fields.insert key value } := by
  have hfields := Table.absorb_upsert Table.combines_last h.fields g.fields key value
  exact (Head.mk.injEq ..).mpr ⟨hfields.symm, rfl, rfl⟩

/-- **Lines may be added before a head is merged, or after.** -/
theorem merge_addLines (h g : Head) (current : Option Text) (ls : List Text) :
    addLines (h.merge g) current ls = h.merge (addLines g current ls) := by
  induction ls generalizing g current with
  | nil => rfl
  | cons l ls ih =>
    rw [addLines, addLines]
    cases linePair? l with
    | none => exact ih g current
    | some pair =>
      dsimp only
      split_ifs with hblank hvalue
      · cases current with
        | none => exact ih g none
        | some name =>
          dsimp only
          rw [merge_addPair, ih]
      · exact ih g _
      · rw [merge_insertField, ih]

/-! ## Lines and lines after them -/

/-- Lines are added one after the other, and from one to the next a section is open or none. -/
theorem exists_current (h : Head) (current : Option Text) (ls : List Text) :
    ∃ current', ∀ ms, addLines h current (ls ++ ms) = addLines (addLines h current ls) current' ms := by
  induction ls generalizing h current with
  | nil => exact ⟨current, fun _ => rfl⟩
  | cons l ls ih =>
    simp only [List.cons_append, addLines]
    cases linePair? l with
    | none => exact ih h current
    | some pair =>
      dsimp only
      split_ifs
      · cases current with
        | none => exact ih h none
        | some name => exact ih _ _
      · exact ih _ _
      · exact ih _ _

/-- The section that is open does not count if the first line with a pair stands at the margin. -/
theorem addLines_of_margin {ls : List Text} (hls : ∀ l ∈ ls.find? isPair, ¬ startsBlank l) (h : Head)
    (current : Option Text) :
    addLines h current (ls.map dropReturns) = addLines h none (ls.map dropReturns) := by
  induction ls with
  | nil => rfl
  | cons l ls ih =>
    have hpair : linePair? (dropReturns l) = linePair? l := linePair?_congr (Text.trim_dropReturns l)
    rw [List.map_cons, addLines, addLines, hpair]
    cases hl : isPair l with
    | false =>
      rw [List.find?_cons_of_neg (by rw [hl]; exact Bool.false_ne_true)] at hls
      rw [← linePair?_isSome, Option.isSome_eq_false_iff, Option.isNone_iff_eq_none] at hl
      rw [hl]
      exact ih hls
    | true =>
      have hmargin : startsBlank (dropReturns l) = false := by
        have hcode : isCode l := (Bool.and_eq_true_iff.1 hl).1
        have hblank := hls l (by rw [List.find?_cons_of_pos hl]; rfl)
        rw [startsBlank_eq] at hblank ⊢
        rw [Text.indentWidth_dropReturns (isCode_iff.1 hcode).1]
        exact eq_false_of_ne_true hblank
      rw [← linePair?_isSome, Option.isSome_iff_exists] at hl
      obtain ⟨pair, hl⟩ := hl
      rw [hl, hmargin]
      rfl

/-- **Heads are a monoid, and reading is a homomorphism into it.** The order of fields, sections and
pairs counts. A text `b` may be anything that does not go on with a section of the text before it. -/
theorem merge_parse :
    (∀ a b c : Head, (a.merge b).merge c = a.merge (b.merge c)) ∧
      (∀ h : Head, empty.merge h = h ∧ h.merge empty = h) ∧
      ∀ a b : Text, (∀ l ∈ (Text.lines b).find? isPair, ¬ startsBlank l) →
        parse (a ++ '\n' :: b) = (parse a).merge (parse b) := by
  refine ⟨merge_assoc, fun h => ⟨empty_merge h, merge_empty h⟩, fun a b hb => ?_⟩
  obtain ⟨current, hcurrent⟩ := exists_current .empty none ((Text.lines a).map dropReturns)
  calc parse (a ++ '\n' :: b)
      = addLines (parse a) current ((Text.lines b).map dropReturns) := by
        rw [parse, Text.lines_append, List.map_append, hcurrent]
        rfl
    _ = addLines ((parse a).merge .empty) none ((Text.lines b).map dropReturns) := by
        rw [addLines_of_margin hb, merge_empty]
    _ = (parse a).merge (parse b) := merge_addLines _ _ _ _

/-- A head that ends in a section, with lines that say nothing in it. -/
def lobby : Text := "title: Lobby\nmeta:\n    a: 1\n    b: 2\n    no pair\nog:\n    c: 3\nmeta:\r".toList

/-- A head that begins with such lines, and opens sections again. -/
def annex : Text :=
  "    no pair\n   # d: 4\nmeta:\n  e: 5\n  a: 'six'\nlang: en\n  f: 7\nlink :\n\ticon: /i\ntitle: \"Annex\"".toList

theorem merge_parse_annex :
    (∀ l ∈ (Text.lines annex).find? isPair, ¬ startsBlank l) ∧
      (parse (lobby ++ '\n' :: annex)).fields.entries =
        [("title".toList, "Annex".toList), ("lang".toList, "en".toList)] ∧
      (parse (lobby ++ '\n' :: annex)).sections.entries.map (fun s => (s.1, s.2.entries)) =
        [("meta".toList, [("a".toList, "six".toList), ("b".toList, "2".toList), ("e".toList, "5".toList)]),
          ("og".toList, [("c".toList, "3".toList)])] ∧
      (parse (lobby ++ '\n' :: annex)).links = [⟨"icon".toList, "/i".toList⟩] := by
  have hmargin : ∀ l ∈ (Text.lines annex).find? isPair, ¬ startsBlank l := by decide +kernel
  refine ⟨hmargin, ?_⟩
  rw [merge_parse.2.2 lobby annex hmargin]
  decide +kernel

end ComponentLang.Head
