import ComponentLang.Proofs.Reflow.Code
import ComponentLang.Proofs.Reflow.Reading

/-!
# Lines whose arrows were spaced

* `isGlued` : a keyword or a tag of the line stands right before its first arrow, and counts as one only
  if a space is put there;
* `Respacing p b b' r r'` : a line with the blanks `b` before its first arrow and one with `b'` there,
  which agree before the arrow, and after it up to blanks around further arrows;
* `respacing_codeText` : so do a line with an arrow and the line in the new layout, if it is not glued;
* `Respacing.classify` : two such lines are of the same category.
-/

namespace ComponentLang

open Text (Blank Trimmed Tail Solid trim isBlank visible)

namespace Reflow

/-- The characters that make a line markup. -/
def isMark (c : Char) : Bool := c = ':' || c = '(' || c = '#'

/-- Before an arrow stands a tag, and not a space right after it. -/
def isBareTag (p : Text) : Bool :=
  builtinTags.any fun tag =>
    (Text.after? tag p).any fun b => b.all isBlank && !Text.startsWith [' '] b

/-- The first top-level arrow of the line stands right after a keyword that asks for a blank, or after
a tag that asks for a space since nothing else makes the line markup. -/
def isGlued (t : Text) : Bool :=
  match Text.split arrow t with
  | p :: _ :: _ => needsBlank p || (isBareTag p && !t.any isMark)
  | _ => false

/-- What is visible after the first top-level colon. -/
def afterColon? (t : Text) : Option Text := (Text.cutColon? t).map fun (_, z) => visible z

/-- A line with the blanks `b` before its first arrow, and one with `b'` there. They agree before the
arrow, and after it as far as blanks do not matter. -/
structure Respacing (p b b' r r' : Text) : Prop extends Loosened p b b' where
  line : '\n' ∉ p ++ (b ++ '-' :: r)
  line' : '\n' ∉ p ++ (b' ++ '-' :: r')
  trimmed : Trimmed (p ++ (b ++ '-' :: r))
  trimmed' : Trimmed (p ++ (b' ++ '-' :: r'))
  level : Nesting.top.scan p = .top
  visible : Text.visible r' = Text.visible r
  colon : afterColon? r' = afterColon? r
  tag : p ∈ builtinTags →
    (b.head? = some ' ' ∧ b'.head? = some ' ') ∨ (p ++ (b ++ '-' :: r)).any isMark

/-! ## Colons -/

theorem afterColon?_pad {lead tail : Text} (hlead : Blank lead) (htail : Blank tail) (t : Text) :
    afterColon? (lead ++ t ++ tail) = afterColon? t := by
  unfold afterColon? Text.cutColon? Text.cut?
  rw [List.append_assoc, Nesting.cutFrom?_colon_append,
    Nesting.cutFrom?_colon_of_not_mem (Nesting.colon_not_mem_blank hlead), Nesting.scan_blank hlead,
    Nesting.cutFrom?_colon_append,
    Nesting.cutFrom?_colon_of_not_mem (Nesting.colon_not_mem_blank htail)]
  cases Nesting.cutFrom? [':'] .top t with
  | none => rfl
  | some az => simp [Text.visible_append, Text.visible_eq_nil.2 htail]

theorem afterColon?_trim (t : Text) : afterColon? (trim t) = afterColon? t := by
  obtain ⟨lead, tail, hlead, htail, ht⟩ := Text.exists_pad t
  have hpad := afterColon?_pad hlead htail (trim t)
  rw [List.append_assoc, ← ht] at hpad
  exact hpad.symm

/-- In a text that comes back to the top level before an arrow, a colon is looked for before the
arrow, and then after it. -/
theorem afterColon?_arrow {p : Text} (hp : Nesting.top.scan p = .top) (t : Text) :
    afterColon? (p ++ arrow ++ t) =
      ((afterColon? p).map (· ++ visible (arrow ++ t))).or (afterColon? t) := by
  unfold afterColon? Text.cutColon? Text.cut?
  rw [List.append_assoc, Nesting.cutFrom?_colon_append, hp, Nesting.cutFrom?_colon_append .top arrow,
    Nesting.cutFrom?_colon_of_not_mem (t := arrow) (by decide), show Nesting.top.scan arrow = .top from rfl]
  cases Nesting.cutFrom? [':'] .top p with
  | none =>
    cases Nesting.cutFrom? [':'] .top t <;> rfl
  | some az => simp [Text.visible_append]

/-- Blanks around arrows do not change what stands after a colon, but for blanks. -/
theorem afterColon?_intercalate {ps ps' : List Text} (h : Nesting.Parted arrow .top ps)
    (hmap : ps'.map trim = ps.map trim) :
    afterColon? (List.intercalate arrow ps') = afterColon? (List.intercalate arrow ps) := by
  induction ps generalizing ps' with
  | nil => exact h.elim
  | cons p ps ih =>
    obtain ⟨p', ps', rfl, hp, hps⟩ := List.map_eq_cons_iff.1 hmap
    have hcolon : afterColon? p' = afterColon? p := by
      rw [← afterColon?_trim p', hp, afterColon?_trim]
    cases ps with
    | nil =>
      rw [List.map_nil, List.map_eq_nil_iff] at hps
      rw [hps, List.intercalate_singleton, List.intercalate_singleton, hcolon]
    | cons q ps =>
      obtain ⟨q', ps', rfl, _⟩ := List.map_eq_cons_iff.1 hps
      have hscan' : Nesting.top.scan p' = .top := by
        rw [← Nesting.scan_trim, hp, Nesting.scan_trim]
        exact h.2.1
      rw [List.intercalate_cons_cons, List.intercalate_cons_cons, afterColon?_arrow h.2.1,
        afterColon?_arrow hscan', hcolon, Text.visible_append, Text.visible_append,
        visible_intercalate hps, ih h.2.2 hps]

/-! ## From a line to the new layout -/

/-- The new code of a line with an arrow: what stands before the first arrow, one space unless this is
nothing, and the arrow and the parts after it. -/
theorem codeText_of_split {t p q : Text} {ps : List Text} (h : Text.split arrow t = p :: q :: ps) :
    ∃ ps', ps'.map trim = (q :: ps).map trim ∧
      codeText t = trim p ++ ((if trim p = [] then [] else [' ']) ++ arrow ++
        List.intercalate arrow ps') := by
  obtain ⟨ps₁, hmap₁, hjoin₁⟩ := Nesting.exists_parts_spaced arrow (trim q) (ps.map trim)
  obtain ⟨q₁, rest₁, rfl, hq₁, hrest₁⟩ := List.map_eq_cons_iff.1 hmap₁
  obtain ⟨ps₂, hmap₂, hjoin₂⟩ :=
    Nesting.exists_parts_trimEnd arrow ⟨'>', rfl, by decide⟩ (' ' :: q₁) rest₁
  have hspace : trim (' ' :: q₁) = trim q :=
    (Text.trim_blank_append (Text.blank_replicate 1) q₁).trans (hq₁.trans (Text.trim_trim q))
  have hrest : rest₁.map trim = ps.map trim := by
    rw [hrest₁, List.map_map]
    exact List.map_congr_left fun u _ => Text.trim_trim u
  refine ⟨ps₂, by rw [hmap₂, List.map_cons, List.map_cons, hspace, hrest], ?_⟩
  have hcode : codeText t = trim (trim p ++ ' ' :: '-' :: '>' :: ' ' ::
      List.intercalate " -> ".toList (trim q :: ps.map trim)) := by
    rw [codeText, h, List.map_cons, List.map_cons, List.intercalate_cons_cons]
    simp
  have hspaced : ' ' :: (arrow ++ [' ']) = " -> ".toList := rfl
  rw [hspaced] at hjoin₁
  rw [Nesting.intercalate_grow, hjoin₁] at hjoin₂
  generalize List.intercalate " -> ".toList (trim q :: ps.map trim) = rest at hcode hjoin₂
  -- blanks at the end are those of the last part
  have hend : ∀ x, Text.trimEnd (x ++ '-' :: '>' :: ' ' :: rest) =
      x ++ (arrow ++ List.intercalate arrow ps₂) := by
    intro x
    have hvisible : ∀ c ∈ (x ++ arrow).getLast?, ¬ isBlank c := by
      rw [List.getLast?_append]
      rintro c ⟨⟩
      decide
    have happ := Text.trimEnd_append_visible hvisible (' ' :: rest)
    rw [← hjoin₂, List.append_assoc, List.append_assoc] at happ
    exact happ
  rw [hcode, trim]
  by_cases hp : trim p = []
  · rw [hp, if_pos rfl, List.nil_append, List.nil_append, List.nil_append]
    exact hend []
  · have hhead : ∀ c ∈ (trim p ++ ' ' :: '-' :: '>' :: ' ' :: rest).head?, ¬ isBlank c := by
      obtain ⟨c, u, hcons⟩ := List.exists_cons_of_ne_nil hp
      have hvisible := (Text.trimmed_trim p).1
      rw [hcons] at hvisible ⊢
      exact hvisible
    have hlast := hend (trim p ++ [' '])
    rw [Text.trimStart_of_head hhead, if_neg hp]
    simpa using hlast

theorem afterColon?_greater (t : Text) : afterColon? ('>' :: t) = afterColon? t := by
  unfold afterColon? Text.cutColon? Text.cut?
  rw [Nesting.cutFrom?_colon_cons, show Nesting.top.next '>' = .top from rfl]
  cases Nesting.cutFrom? [':'] .top t <;> rfl

/-- What stands before the first arrow of a trimmed text is cut at its end alone. -/
theorem exists_blank_before {t p x : Text} (ht : Trimmed t) (h : t = p ++ x) :
    ∃ b, Blank b ∧ p = trim p ++ b := by
  have hhead : ∀ c ∈ p.head?, ¬ isBlank c := by
    intro c hc
    refine ht.1 c ?_
    rw [h, List.head?_append, Option.mem_def.1 hc]
    rfl
  have htrim : trim p = Text.trimEnd p := by rw [trim, Text.trimStart_of_head hhead]
  rw [htrim]
  exact Text.exists_trimEnd p

/-- A tag before an arrow has a space after it, if it is not bare. -/
theorem head?_of_not_isBareTag {p b : Text} (hp : p ∈ builtinTags) (hb : Blank b)
    (h : isBareTag (p ++ b) = false) : b.head? = some ' ' := by
  have hafter : Text.after? p (p ++ b) = some b := Text.after?_eq_some_iff.2 rfl
  have hblank : b.all isBlank = true := List.all_eq_true.2 hb
  have hbare := List.any_eq_false.1 h p hp
  rw [hafter, Option.any_some, hblank, Bool.true_and, Bool.not_eq_true', Bool.not_eq_false,
    Text.startsWith_iff] at hbare
  obtain ⟨rest, rfl⟩ := hbare
  rfl

/-- **A line and its new layout agree, if the line is not glued.** -/
theorem respacing_codeText {t : Text} (ht : Trimmed t) (hline : '\n' ∉ t)
    (hglued : isGlued t = false) :
    codeText t = t ∨ ∃ p b b' r r', t = p ++ (b ++ '-' :: r) ∧ codeText t = p ++ (b' ++ '-' :: r') ∧
      Respacing p b b' r r' := by
  have hjoin := intercalate_split t
  have hparted := parted_split t
  cases hsplit : Text.split arrow t with
  | nil => exact absurd hsplit (split_ne_nil t)
  | cons p₀ ps =>
    cases ps with
    | nil =>
      rw [hsplit, List.intercalate_singleton] at hjoin
      left
      rw [codeText, hsplit, List.map_singleton, List.intercalate_singleton, Text.trim_trim, hjoin,
        ht.trim]
    | cons q ps =>
      right
      rw [hsplit] at hparted hjoin
      rw [List.intercalate_cons_cons, List.append_assoc] at hjoin
      rw [isGlued, hsplit] at hglued
      obtain ⟨hneeds, hbare⟩ := Bool.or_eq_false_iff.1 hglued
      obtain ⟨b, hb, hp₀⟩ := exists_blank_before ht hjoin.symm
      obtain ⟨ps', hmap, hcode⟩ := codeText_of_split hsplit
      have htext : t = trim p₀ ++ (b ++ '-' :: '>' :: List.intercalate arrow (q :: ps)) := by
        rw [← List.append_assoc, ← hp₀]
        exact hjoin.symm
      rw [List.append_assoc] at hcode
      have hlevel := (Nesting.scan_trim p₀).2 hparted.2.1
      have hlast := (Text.trimmed_trim p₀).2
      have htrimmed := trimmed_codeText t
      have hline' : '\n' ∉ codeText t := fun hmem =>
        (mem_codeText hmem).elim (by decide) hline
      generalize trim p₀ = p at hp₀ hcode htext hlevel hlast
      subst hp₀
      -- blanks that are gone or new stand after something, which the line does not begin with
      have hblank' : Blank (if p = [] then [] else [' ']) := by
        split_ifs
        · exact Text.blank_nil
        · exact Text.blank_replicate 1
      refine ⟨p, b, _, _, '>' :: List.intercalate arrow ps', htext, hcode,
        ⟨hlast, hb, hblank', ?_⟩, htext ▸ hline, hcode ▸ hline', htext ▸ ht, hcode ▸ htrimmed, hlevel,
        ?_, ?_, ?_⟩
      · intro hneeds'
        have hbne : b ≠ [] := by
          rintro rfl
          rw [List.append_nil, hneeds'] at hneeds
          cases hneeds
        have hpne : p ≠ [] := by
          rintro rfl
          revert hneeds'
          decide
        simp [hbne, hpne]
      · have hvisible : visible (List.intercalate arrow ps') =
            visible (List.intercalate arrow (q :: ps)) := visible_intercalate hmap
        exact congrArg (Text.visible ['>'] ++ ·) hvisible
      · rw [afterColon?_greater, afterColon?_greater, afterColon?_intercalate hparted.2.2 hmap]
      · intro hp
        by_cases hmark : t.any isMark = true
        · exact Or.inr (htext ▸ hmark)
        · have hpne : p ≠ [] := by
            rintro rfl
            revert hp
            decide
          have hbare' : isBareTag (p ++ b) = false := by
            rwa [Bool.eq_false_iff.2 hmark, Bool.not_false, Bool.and_true] at hbare
          exact Or.inl ⟨head?_of_not_isBareTag hp hb hbare', by rw [if_neg hpne]; rfl⟩

/-! ## Categories -/

theorem classify_congr {rules : List Rule} {tags : List Text} {t t' : Text}
    (h : ∀ rule ∈ rules, rule.claims tags t' = rule.claims tags t) :
    classify rules tags t' = classify rules tags t := by
  have hfind : (rules.find? fun rule => rule.claims tags t') =
      rules.find? fun rule => rule.claims tags t := by
    induction rules with
    | nil => rfl
    | cons rule rules ih =>
      rw [List.find?_cons, List.find?_cons, h rule List.mem_cons_self,
        ih fun rule' hrule => h rule' (List.mem_cons_of_mem rule hrule)]
  rw [classify, classify, hfind]

theorem not_isMark_of_isBlank {c : Char} (hc : isBlank c) : isMark c = false := by
  have hne : ∀ d : Char, isBlank d = false → c ≠ d := fun d => Text.ne_of_isBlank hc
  simp [isMark, hne ':' (by decide), hne '(' (by decide), hne '#' (by decide)]

theorem visible_tail {p b : Text} (hb : Blank b) (r : Text) :
    visible (p ++ (b ++ '-' :: r)) = visible p ++ '-' :: visible r := by
  rw [Text.visible_append, Text.visible_append, Text.visible_eq_nil.2 hb]
  rfl

theorem ofTag?_tail {p x : Text} (hx : Tail x) : Persona.ofTag? (p ++ x) = Persona.ofTag? p := by
  have hsolid : ∀ persona : Persona, Solid ('@' :: persona.label) := by
    intro persona
    cases persona <;> decide
  simp only [Persona.ofTag?, Text.afterWord?_tail (hsolid _) hx, Option.isSome_map]

theorem isQuotedLine_congr {t t' : Text} (h : t'.head? = t.head?) :
    isQuotedLine t' = isQuotedLine t := by
  cases t <;> cases t' <;> simp_all [isQuotedLine]

theorem isCapitalised_firstWord (t : Text) :
    isCapitalised (firstWord t) = t.head?.any fun c => !endsTag c && Text.isCapital c := by
  cases t with
  | nil => rfl
  | cons c t =>
    rw [firstWord, List.takeWhile_cons]
    cases hends : endsTag c <;> simp [isCapitalised, hends]

/-- What stands before an arrow is the first word if a space comes next. -/
theorem contains_firstWord {p x : Text} (hp : ∀ c ∈ p, endsTag c = false) (hx : Tail x) :
    builtinTags.contains (firstWord (p ++ x)) =
      (builtinTags.contains p && Text.startsWith [' '] x) := by
  have hsolid : ∀ tag ∈ builtinTags, Solid tag := by decide
  obtain ⟨c, rest, rfl, hc⟩ := hx.exists_cons
  have htake : firstWord (p ++ c :: rest) = p ++ firstWord (c :: rest) := by
    rw [firstWord, firstWord, List.takeWhile_append_of_pos]
    intro d hd
    rw [hp d hd]
    rfl
  rw [htake]
  by_cases hspace : c = ' '
  · subst hspace
    have hstop : firstWord (' ' :: rest) = [] := rfl
    have hstarts : Text.startsWith [' '] (' ' :: rest) = true := rfl
    rw [hstop, hstarts, List.append_nil, Bool.and_true]
  · have hstarts : Text.startsWith [' '] (c :: rest) = false := by
      simp [Text.startsWith, Text.after?, Ne.symm hspace]
    have hgo : endsTag c = false := by
      rcases hc with hc | rfl
      · have hne : ∀ d : Char, isBlank d = false → c ≠ d := fun d => Text.ne_of_isBlank hc
        simp [endsTag, hspace, hne '.' (by decide), hne '(' (by decide), hne '#' (by decide)]
      · rfl
    have hmem : c ∈ p ++ firstWord (c :: rest) := by
      simp [firstWord, hgo]
    rw [hstarts, Bool.and_false, Bool.eq_false_iff, ne_eq, List.contains_iff_mem]
    intro htag
    obtain ⟨hblank, hdash⟩ := hsolid _ htag c hmem
    rcases hc with hc | hc
    · exact Text.ne_of_isBlank hc hblank rfl
    · exact hdash hc

section

variable {p b b' r r' : Text} (h : Respacing p b b' r r')
include h

theorem Respacing.visible_eq :
    Text.visible (p ++ (b' ++ '-' :: r')) = Text.visible (p ++ (b ++ '-' :: r)) := by
  rw [visible_tail h.blank, visible_tail h.blank', h.visible]

theorem Respacing.head?_eq : (p ++ (b' ++ '-' :: r')).head? = (p ++ (b ++ '-' :: r)).head? := by
  rw [← Text.head?_visible h.trimmed.1, ← Text.head?_visible h.trimmed'.1, h.visible_eq]

theorem Respacing.any_isMark :
    (p ++ (b' ++ '-' :: r')).any isMark = (p ++ (b ++ '-' :: r)).any isMark := by
  rw [← Text.any_visible fun c => not_isMark_of_isBlank, h.visible_eq,
    Text.any_visible fun c => not_isMark_of_isBlank]

/-- Unless something else makes the line markup, its first word is a tag both times or neither. -/
theorem Respacing.contains_firstWord (hmark : (p ++ (b ++ '-' :: r)).any isMark = false) :
    builtinTags.contains (firstWord (p ++ (b' ++ '-' :: r'))) =
      builtinTags.contains (firstWord (p ++ (b ++ '-' :: r))) := by
  by_cases hp : ∀ c ∈ p, endsTag c = false
  · rw [Reflow.contains_firstWord hp (h.tail r), Reflow.contains_firstWord hp (h.tail' r')]
    cases htag : builtinTags.contains p with
    | false => rfl
    | true =>
      rcases h.tag (List.contains_iff_mem.1 htag) with ⟨hb, hb'⟩ | hmark'
      · obtain ⟨y, rfl⟩ := List.head?_eq_some_iff.1 hb
        obtain ⟨y', rfl⟩ := List.head?_eq_some_iff.1 hb'
        rfl
      · rw [hmark] at hmark'
        cases hmark'
  · obtain ⟨c, hc, hends⟩ : ∃ c ∈ p, endsTag c = true := by simpa using hp
    have hword : ∀ x, firstWord (p ++ x) = firstWord p := by
      intro x
      obtain ⟨u, v, rfl⟩ := List.append_of_mem hc
      have hstop : (fun d => !endsTag d) c = false := by simp [hends]
      rw [firstWord, firstWord, List.append_assoc, List.cons_append,
        Text.takeWhile_append_stop hstop, Text.takeWhile_append_stop hstop]
    rw [hword, hword]

theorem Respacing.isMarkup :
    isMarkup builtinTags (p ++ (b' ++ '-' :: r')) =
      isMarkup builtinTags (p ++ (b ++ '-' :: r)) := by
  have hsplit : ∀ t, ComponentLang.isMarkup builtinTags t =
      (t.any isMark || builtinTags.contains (firstWord t) || isCapitalised (firstWord t)) :=
    fun _ => rfl
  rw [hsplit, hsplit, h.any_isMark, isCapitalised_firstWord, isCapitalised_firstWord, h.head?_eq]
  cases hmark : (p ++ (b ++ '-' :: r)).any isMark with
  | true => rfl
  | false => rw [h.contains_firstWord hmark]

/-- The rules of the language claim both lines or neither. -/
theorem Respacing.classify :
    classify Rule.standard builtinTags (p ++ (b' ++ '-' :: r')) =
      classify Rule.standard builtinTags (p ++ (b ++ '-' :: r)) := by
  refine classify_congr ?_
  simp only [Rule.standard, List.forall_mem_cons, Rule.word, Rule.lead, Rule.spaced]
  exact ⟨h.isSome_afterWord? (by decide) r r', h.isSome_afterWord? (by decide) r r',
    h.startsWith (by decide) r r', h.startsWith (by decide) r r', h.startsWith (by decide) r r',
    h.isSome_afterWord? (by decide) r r', h.isSome_spacedWord (by decide) r r',
    by rw [ofTag?_tail (h.tail r), ofTag?_tail (h.tail' r')], h.startsWith (by decide) r r',
    h.isSome_afterWord? (by decide) r r', h.isSome_spacedWord (by decide) r r',
    h.isSome_spacedWord (by decide) r r', h.isSome_spacedWord (by decide) r r',
    h.isSome_mount r r', h.isSome_change r r', h.isControl r r', isQuotedLine_congr h.head?_eq,
    h.isMarkup, fun rule hrule => by cases hrule⟩

end

end Reflow

end ComponentLang
