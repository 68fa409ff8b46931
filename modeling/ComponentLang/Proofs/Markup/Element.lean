import ComponentLang.Proofs.Markup.Header

/-!
# Element lines, written and read

* `IsValid.slotName?_header` : the line of an element declares no slot;
* `pieces_name` : the name is divided into the tag and its classes, the last with the reference;
* `IsValid.splitAttributes_side` : the first opening and the last closing bracket of the tag side are
  those around the attributes;
* `IsValid.parseEvent_eventText` : an event is read back;
* `IsValid.parseElement_header` : so is the header;
* `IsValid.splitInline_text`, `IsValid.splitInline_blockText` : the line is cut after the header;
* `parse_elementLine` : hence the lines of elements are read back.
-/

namespace ComponentLang

open Nesting
open Text (Blank Trimmed trim isBlank)

namespace ElementLine

variable {l : ElementLine}

/-! ## No slot -/

/-- The text does not go on with a character of a tag. -/
def Stops (x : Text) : Prop := ∀ d ∈ x.head?, isTagChar d = false

theorem stops_nil : Stops [] := by
  intro d hd
  cases hd

theorem stops_cons {c : Char} (hc : isTagChar c = false) (x : Text) : Stops (c :: x) := by
  intro d hd
  cases hd
  exact hc

theorem Stops.append {x y : Text} (hx : Stops x) (hy : Stops y) : Stops (x ++ y) := by
  cases x with
  | nil => exact hy
  | cons c x => exact stops_cons (hx c rfl) (x ++ y)

/-- After the tag, the header does not go on with a character of a tag. -/
theorem exists_header (l : ElementLine) : ∃ x, l.header = l.tag ++ x ∧ Stops x := by
  have hclasses : Stops (l.classes.flatMap ('.' :: ·)) := by
    cases l.classes with
    | nil => exact stops_nil
    | cons w ws => exact stops_cons rfl _
  have href : Stops (l.ref.elim [] ('#' :: ·)) := by
    cases l.ref with
    | none => exact stops_nil
    | some r => exact stops_cons rfl r
  have hattributes : Stops (if l.attributes = [] then [] else
      '(' :: (attributesText l.attributes ++ [')'])) := by
    split_ifs
    · exact stops_nil
    · exact stops_cons rfl _
  have hevent : Stops (l.event.elim [] fun e => " -> ".toList ++ eventText e) := by
    cases l.event with
    | none => exact stops_nil
    | some e => exact stops_cons rfl _
  refine ⟨_, ?_, ((hclasses.append href).append hattributes).append hevent⟩
  rw [header, side, name]
  simp only [List.append_assoc]

theorem IsValid.slotName?_header (h : l.IsValid) : slotName? l.header = none := by
  obtain ⟨x, hx, hhead⟩ := l.exists_header
  have hslot : ∀ d ∈ "slot".toList, isTagChar d := List.all_eq_true.1 rfl
  rw [slotName?, Option.map_eq_none_iff, Text.afterWord?, Option.filter_eq_none_iff]
  intro rest hrest hends
  have heq := (Text.after?_eq_some_iff.1 hrest).symm.trans hx
  rcases List.append_eq_append_iff.1 heq with ⟨y, htag, hrest'⟩ | ⟨y, hword, hx'⟩
  · -- the tag goes on after the word, with a dash only if it begins with `slot-`
    cases y with
    | nil => exact h.not_slot.1 (by rw [htag, List.append_nil])
    | cons d y =>
      have hd : isTagChar d := h.tag.chars d (by rw [htag]; simp)
      by_cases hdash : d = '-'
      · refine h.not_slot.2 ⟨y, ?_⟩
        rw [htag, hdash]
        rfl
      · have hword := (isPlain_of_isTagChar hd).2.2 hdash
        rw [hrest', List.cons_append, Text.endsWord, hword] at hends
        cases hends
  · -- the word goes on after the tag
    cases y with
    | nil => exact h.not_slot.1 (by rw [hword, List.append_nil])
    | cons d y =>
      have hd := hslot d (by rw [hword]; simp)
      rw [hhead d (by rw [hx']; rfl)] at hd
      cases hd

/-! ## The name -/

theorem partName_word {w : Text} (h : IsTagWord w) : partName w = w := by
  have hhash : ∀ c ∈ w, decide (c ≠ '#') = true := by
    intro c hc
    rw [decide_eq_true_eq]
    rintro rfl
    exact h.not_mem rfl hc
  rw [partName, List.takeWhile_eq_self_iff.2 hhash, h.trimmed.trim]

theorem partName_ref {w : Text} (h : IsTagWord w) (r : Text) : partName (w ++ '#' :: r) = w := by
  have hword := partName_word h
  rwa [partName, Text.takeWhile_append_stop (by decide), ← partName]

theorem partRef?_word {w : Text} (h : IsTagWord w) : partRef? w = none := by
  rw [partRef?, Text.splitFirst?_of_not_mem (h.not_mem rfl), Option.bind_none]

theorem partRef?_ref {w r : Text} (h : IsTagWord w) (hr : IsTagWord r) :
    partRef? (w ++ '#' :: r) = some r := by
  have href : Text.nonempty? (trim r) = some r := by
    rw [hr.trimmed.trim, Text.nonempty?, if_neg hr.ne_nil]
  rw [partRef?, Text.splitFirst?_append (h.not_mem rfl), Option.bind_some]
  exact href

/-- The parts between the points of a name are the tag and the classes; the last has the reference. -/
theorem pieces_name {w : Text} {ws : List Text} {ref : Option Text} (hw : IsTagWord w)
    (hws : ∀ v ∈ ws, IsTagWord v) (href : ∀ r ∈ ref, IsTagWord r) :
    let parts := Text.pieces '.' (w ++ (ws.flatMap ('.' :: ·) ++ ref.elim [] ('#' :: ·)))
    parts.map partName = w :: ws ∧ parts.filterMap partRef? = ref.toList := by
  induction ws generalizing w with
  | nil =>
    cases ref with
    | none =>
      have hpieces := Text.pieces_of_not_mem (hw.not_mem (d := '.') rfl)
      simp [hpieces, partName_word hw, partRef?_word hw]
    | some r =>
      have hr := href r rfl
      have hdot : '.' ∉ w ++ '#' :: r := by
        simp [hw.not_mem (d := '.') rfl, hr.not_mem (d := '.') rfl]
      simp [Text.pieces_of_not_mem hdot, partName_ref hw, partRef?_ref hw hr]
  | cons v ws ih =>
    rw [List.forall_mem_cons] at hws
    have hrest := ih hws.1 hws.2
    have hpieces := Text.pieces_append (hw.not_mem (d := '.') rfl)
      (v ++ (ws.flatMap ('.' :: ·) ++ ref.elim [] ('#' :: ·)))
    simp only [List.flatMap_cons, List.cons_append, List.append_assoc] at hrest ⊢
    rw [hpieces, List.map_cons, hrest.1, partName_word hw]
    exact ⟨rfl, by rw [List.filterMap_cons_none (partRef?_word hw), hrest.2]⟩

/-! ## The tag side -/

/-- The first opening and the last closing bracket of the tag side are those around the attributes. -/
theorem IsValid.splitAttributes_side (h : l.IsValid) :
    (splitAttributes l.side).1 = l.name ∧ (splitAttributes l.side).2.entries = l.attributes := by
  have hopen : '(' ∉ l.name := h.not_mem_name (by decide)
  by_cases hattrs : l.attributes = []
  · have hside : bracketed? l.side = none := by
      rw [side, if_pos hattrs, List.append_nil, bracketed?, Text.splitFirst?_of_not_mem hopen,
        Option.bind_none]
    rw [splitAttributes, hside, hattrs]
    exact ⟨by rw [side, if_pos hattrs, List.append_nil], rfl⟩
  · have hside : bracketed? l.side = some (l.name, attributesText l.attributes) := by
      rw [side, if_neg hattrs, bracketed?, Text.splitFirst?_append hopen, Option.bind_some]
      simp only [Text.splitLast?_concat, Option.map_some]
    rw [splitAttributes, hside]
    refine ⟨h.trimmed_name.trim, ?_⟩
    have hread := filterMap_split_text fun e he => (h.attributes e he).1
    have hkeys : (Entries.keys (Table.empty.entries ++ l.attributes)).Nodup := h.distinct
    show (parseAttributes (attributesText l.attributes)).entries = l.attributes
    rw [parseAttributes, hread, Table.entries_insertAll hkeys, Table.entries_empty, List.nil_append]

/-! ## The event -/

theorem IsValid.parseEvent_eventText (h : l.IsValid) {e : Text × Text} (he : e ∈ l.event) :
    parseEvent (eventText e) = binding e := by
  have hevent := h.event e he
  have htrim := hevent.trimmed_text.trim
  by_cases hempty : e.1 = []
  · have hcall : eventCall? (trim (eventText e)) = none := by
      rw [htrim, eventText, hempty]
      rfl
    have hhandler : isHandlerName (trim (eventText e)) = false := by
      rw [htrim, eventText, hempty]
      rfl
    rw [parseEvent_of_not_call hcall, hhandler, htrim, binding, if_pos hempty]
    rfl
  · have hcall : IsCall e.1 e.2 (trim (eventText e)) :=
      ⟨hempty, hevent.name, hevent.line, [], Text.blank_nil, htrim⟩
    rw [parseEvent_of_isCall hcall, hevent.trimmed.trim, if_neg hevent.ne_nil, binding,
      if_neg hempty]
    rfl

theorem binding_ne_class (e : Text × Text) : (binding e).1 ≠ "class".toList := by
  have ho : (binding e).1.head? = some 'o' := by
    rw [binding]
    split_ifs <;> rfl
  intro h
  rw [h] at ho
  cases ho

/-! ## The element -/

theorem IsValid.classNames_eq (h : l.IsValid) :
    classNames (l.tag :: l.classes) = List.intercalate [' '] l.classes := by
  have hall : ∀ w ∈ l.classes, decide (w ≠ []) = true := fun w hw =>
    decide_eq_true (h.classes w hw).ne_nil
  rw [classNames, List.drop_one, List.tail_cons, List.filter_eq_self.2 hall]

/-- The classes are added after the attributes, if there are any. -/
theorem IsValid.entries_addClasses (h : l.IsValid) {t : Table Text} (ht : t.entries = l.attributes) :
    (addClasses t (List.intercalate [' '] l.classes)).entries = l.attributes ++
      if l.classes = [] then [] else [("class".toList, List.intercalate [' '] l.classes)] := by
  rw [addClasses]
  cases hclasses : l.classes with
  | nil => simpa using ht
  | cons w ws =>
    have hne : List.intercalate [' '] (w :: ws) ≠ [] := by
      intro hnil
      obtain ⟨rest, hrest⟩ := prefix_intercalate [' '] w ws
      rw [hnil] at hrest
      exact (h.classes w (by simp [hclasses])).ne_nil (List.append_eq_nil_iff.1 hrest).1
    have hnew : "class".toList ∉ Entries.keys t.entries := ht ▸ h.no_class
    rw [if_neg hne, if_neg (List.cons_ne_nil w ws), Table.entries_insert,
      Entries.put_of_not_mem hnew, ht]

/-- The event is added at the end. -/
theorem IsValid.entries_addEvent (h : l.IsValid) {t : Table Text}
    (ht : ∀ k ∈ Entries.keys t.entries, k ∈ Entries.keys l.attributes ∨ k = "class".toList) :
    (addEvent t (l.event.elim [] eventText)).entries =
      t.entries ++ (l.event.map binding).toList := by
  cases he : l.event with
  | none => simp [addEvent]
  | some e =>
    have hne : eventText e ≠ [] := by simp [eventText]
    have hnew : (binding e).1 ∉ Entries.keys t.entries := by
      intro hmem
      rcases ht _ hmem with hattr | hclass
      · exact h.no_event e he hattr
      · exact binding_ne_class e hclass
    rw [Option.elim_some, addEvent, if_neg hne, h.parseEvent_eventText he, Table.entries_insert,
      Entries.put_of_not_mem hnew]
    rfl

/-- The header is read back. -/
theorem IsValid.parseElement_header (h : l.IsValid) :
    ∃ table : Table Text, table.entries = l.entries ∧ ∀ inline opensBlock,
      parseElement l.header inline opensBlock = ⟨l.tag, table, l.ref, inline, opensBlock⟩ := by
  obtain ⟨hname, hattributes⟩ := h.splitAttributes_side
  obtain ⟨hparts, href⟩ := pieces_name h.tag h.classes h.ref
  have hclasses := h.entries_addClasses hattributes
  have hkeys : ∀ k ∈ Entries.keys (addClasses (splitAttributes l.side).2
      (List.intercalate [' '] l.classes)).entries,
      k ∈ Entries.keys l.attributes ∨ k = "class".toList := by
    intro k hk
    rw [hclasses, Entries.keys, List.map_append, List.mem_append] at hk
    refine hk.imp id fun hclass => ?_
    split_ifs at hclass
    · cases hclass
    · exact List.mem_singleton.1 hclass
  refine ⟨addEvent (addClasses (splitAttributes l.side).2 (List.intercalate [' '] l.classes))
    (l.event.elim [] eventText), ?_, fun inline opensBlock => ?_⟩
  · rw [h.entries_addEvent hkeys, hclasses, entries, List.append_assoc]
  · have htag : tagName (l.tag :: l.classes) = l.tag := by
      simp [tagName, Text.nonempty?, h.tag.ne_nil]
    have hlast : l.ref.toList.getLast? = l.ref := by cases l.ref <;> rfl
    rw [parseElement, h.splitArrow_header]
    simp only [hname]
    rw [name, hparts, href, h.classNames_eq, htag, hlast]

/-! ## The line -/

theorem IsValid.header_ne_nil (h : l.IsValid) : l.header ≠ [] := by
  obtain ⟨x, hx, _⟩ := l.exists_header
  simp [hx, h.tag.ne_nil]

theorem IsValid.trimmed_header (h : l.IsValid) : Trimmed l.header := by
  cases he : l.event with
  | none =>
    rw [header_of_none he]
    exact h.trimmed_side
  | some e =>
    have hside : l.side ≠ [] := by simp [side, h.name_ne_nil]
    rw [header_of_some he]
    exact Text.trimmed_append h.trimmed_side hside " -> ".toList (h.event e he).trimmed_text
      (by simp [eventText])

/-- A header ends in a bracket, or as the name does. -/
theorem IsValid.endsWith_header (h : l.IsValid) : Text.endsWith ':' l.header = false := by
  have hbracket : ∀ t : Text, Text.endsWith ':' (t ++ [')']) = false := by simp [Text.endsWith]
  cases he : l.event with
  | none =>
    rw [header_of_none he, side]
    split_ifs
    · rw [List.append_nil, Text.endsWith, decide_eq_false_iff_not]
      exact fun hlast => h.not_mem_name (by decide) (List.mem_of_getLast? hlast)
    · have hend := hbracket (l.name ++ '(' :: attributesText l.attributes)
      rwa [List.append_assoc] at hend
  | some e =>
    have hend := hbracket (l.side ++ (" -> ".toList ++ (e.1 ++ '(' :: e.2)))
    rw [header_of_some he, eventText]
    simpa only [List.append_assoc, List.cons_append] using hend

theorem IsValid.cutColon?_header (h : l.IsValid) (r : Text) :
    Text.cutColon? (l.header ++ ':' :: r) = some (l.header, r) :=
  cutColon?_append (free_iff.1 h.free_colon_header) (h.balanced_header 0) r

/-- Without content, the line is the header. -/
theorem IsValid.splitInline_header (h : l.IsValid) : splitInline l.header = (l.header, none) := by
  rw [splitInline, cutColon?_eq_none (free_iff.1 h.free_colon_header)]
  simp only [h.trimmed_header.trim, Text.dropFinal, h.endsWith_header, Bool.false_eq_true, if_false]

/-- A line is cut at the colon after the header. -/
theorem IsValid.splitInline_colon (h : l.IsValid) (r : Text) :
    splitInline (l.header ++ ':' :: r) = (l.header, Text.nonempty? (trim r)) := by
  rw [splitInline, h.cutColon?_header]
  simp only [h.trimmed_header.trim]

theorem IsValid.parse_of_splitInline (h : l.IsValid) {t : Text} {inline : Option Text}
    (ht : Trimmed t) (hsplit : splitInline t = (l.header, inline)) :
    Markup.parse t =
      .element (parseElement l.header inline (inline.isNone && Text.endsWith ':' t)) := by
  rw [Markup.parse, ht.trim, hsplit]
  simp only [h.slotName?_header]

/-- Lines of elements are read back: with content, without it, and where they open a block. -/
theorem parse_elementLine (h : l.IsValid) :
    ∃ table : Table Text, table.entries = l.entries ∧
      Markup.parse (l.text none) = .element ⟨l.tag, table, l.ref, none, false⟩ ∧
      (∀ inline, inline ≠ [] → Trimmed inline →
        Markup.parse (l.text (some inline)) =
          .element ⟨l.tag, table, l.ref, some inline, false⟩) ∧
      Markup.parse l.blockText = .element ⟨l.tag, table, l.ref, none, true⟩ := by
  obtain ⟨table, hentries, hparse⟩ := h.parseElement_header
  refine ⟨table, hentries, ?_, fun inline hne hinline => ?_, ?_⟩
  · have htext : l.text none = l.header := List.append_nil _
    rw [htext, h.parse_of_splitInline h.trimmed_header h.splitInline_header, hparse,
      h.endsWith_header]
    rfl
  · have htrimmed : Trimmed (l.text (some inline)) :=
      Text.trimmed_append h.trimmed_header h.header_ne_nil ": ".toList hinline hne
    have hcontent : Text.nonempty? (trim (' ' :: inline)) = some inline := by
      have htrim := Text.trim_eq (Text.blank_replicate 1) hinline Text.blank_nil
      rw [List.append_nil] at htrim
      rw [show ' ' :: inline = List.replicate 1 ' ' ++ inline from rfl, htrim, Text.nonempty?,
        if_neg hne]
    have hsplit := h.splitInline_colon (' ' :: inline)
    rw [hcontent] at hsplit
    rw [h.parse_of_splitInline htrimmed hsplit, hparse]
    rfl
  · have htrimmed : Trimmed l.blockText :=
      Text.trimmed_append h.trimmed_header h.header_ne_nil [] (u := [':']) (by decide) (by simp)
    have hends : Text.endsWith ':' l.blockText = true := by simp [Text.endsWith, blockText]
    rw [h.parse_of_splitInline htrimmed (h.splitInline_colon []), hparse, hends]
    rfl

/-- A button with everything that can be written on its line. -/
def saveButton : ElementLine where
  tag := "button".toList
  classes := ["primary".toList, "-big".toList]
  ref := some "save_1".toList
  attributes := [("title".toList, "f(':', \"a, (b\") -> $c".toList), ("class:on".toList, "$x ? 1 : 2".toList)]
  event := some ("keydown.enter".toList, "submit(a -> b, ['d)'])".toList)

theorem isValid_saveButton : saveButton.IsValid where
  tag := by decide
  not_slot := by decide
  classes := by decide
  ref := by decide
  attributes := by decide
  distinct := by decide
  no_class := by decide
  event := by decide
  no_event := by decide

theorem parse_elementLine_saveButton :
    saveButton.IsValid ∧
      saveButton.header = ("button.primary.-big#save_1(title: f(':', \"a, (b\") -> $c, " ++
        "class:on: $x ? 1 : 2) -> keydown.enter(submit(a -> b, ['d)']))").toList ∧
      ∃ table : Table Text,
        table.entries = [("title".toList, "f(':', \"a, (b\") -> $c".toList),
          ("class:on".toList, "$x ? 1 : 2".toList), ("class".toList, "primary -big".toList),
          ("onkeydown|enter".toList, "__VIAND_CALL__submit(a -> b, ['d)'])".toList)] ∧
        Markup.parse (saveButton.text (some "Save: (a -> b".toList)) =
          .element ⟨"button".toList, table, some "save_1".toList, some "Save: (a -> b".toList, false⟩ ∧
        Markup.parse saveButton.blockText =
          .element ⟨"button".toList, table, some "save_1".toList, none, true⟩ := by
  obtain ⟨table, hentries, _, hinline, hblock⟩ := parse_elementLine isValid_saveButton
  have hparse := hinline "Save: (a -> b".toList (by decide) (by decide)
  exact ⟨isValid_saveButton, by decide +kernel, table, hentries, hparse, hblock⟩

/-- An event without a name is no event: what stands in its brackets is bound to a click, brackets
included, and not to the key `on`. -/
theorem not_parse_nameless_event :
    (⟨"a".toList, [], none, [], some ([], "h".toList)⟩ : ElementLine).text none =
        "a -> (h)".toList ∧
      ¬ ∃ table : Table Text, table.entries = [("on".toList, "__VIAND_CALL__h".toList)] ∧
        Markup.parse "a -> (h)".toList = .element ⟨"a".toList, table, none, none, false⟩ := by
  refine ⟨by decide, ?_⟩
  rintro ⟨table, hentries, hparse⟩
  have hclick : Markup.parse "a -> (h)".toList =
      .element ⟨"a".toList, Table.empty.insert "onclick".toList "__VIAND_CALL__(h)".toList, none, none,
        false⟩ := by decide
  rw [hclick] at hparse
  cases hparse
  revert hentries
  decide

end ElementLine

end ComponentLang
