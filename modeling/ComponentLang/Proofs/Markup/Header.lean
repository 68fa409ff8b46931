import ComponentLang.Markup.Basic
import ComponentLang.Proofs.Markup.Attributes
import ComponentLang.Proofs.Markup.Event

/-!
# The line of an element, written

* `ElementLine` : tag, classes, reference, attributes and event of an element, in the order in which they
  are written; `name`, `side`, `header` : the beginnings of the line up to these parts;
* `ElementLine.IsValid` : what can be written. Values and handlers may hold all separators, inside brackets
  and quotes;
* `IsValid.balanced_header`, `IsValid.free_colon_header` : the header is balanced and holds no colon at the
  top level;
* `IsValid.splitArrow_header` : the last top-level arrow is the one before the event.
-/

namespace ComponentLang

open Nesting
open Text (Blank Trimmed trim isBlank)

/-! ## Words -/

/-- The characters of tags, classes and references. -/
def isTagChar (c : Char) : Bool :=
  Text.isLatinLetter c || ('0' ≤ c && c ≤ '9') || c = '-' || c = '_'

/-- A tag, class or reference. -/
structure IsTagWord (w : Text) : Prop where
  ne_nil : w ≠ []
  chars : ∀ c ∈ w, isTagChar c

theorem toNat_of_isTagChar {c : Char} (h : isTagChar c) : c.toNat < 123 := by
  rw [isTagChar, Bool.or_eq_true, Bool.or_eq_true, decide_eq_true_eq, decide_eq_true_eq] at h
  rcases h with (hlatin | rfl) | rfl
  · exact Text.toNat_of_isLatinLetter_or_digit hlatin
  · decide
  · decide

set_option maxRecDepth 10000 in
/-- The characters of words are neither blanks nor brackets nor quotes, and but for the dash they make
words go on. -/
theorem isPlain_of_isTagChar {c : Char} (h : isTagChar c) :
    isPlain c ∧ ¬ isBlank c ∧ (c ≠ '-' → Text.isWord c) := by
  have hall : ∀ n < 123, isTagChar (Char.ofNat n) →
      isPlain (Char.ofNat n) ∧ ¬ isBlank (Char.ofNat n) ∧
        (Char.ofNat n ≠ '-' → Text.isWord (Char.ofNat n)) := by decide +kernel
  exact Text.forall_char_lt
    (p := fun c => isTagChar c → isPlain c ∧ ¬ isBlank c ∧ (c ≠ '-' → Text.isWord c)) hall
    (toNat_of_isTagChar h) h

theorem IsTagWord.not_mem {w : Text} (h : IsTagWord w) {d : Char} (hd : isTagChar d = false) :
    d ∉ w := by
  intro hmem
  rw [h.chars d hmem] at hd
  cases hd

theorem IsTagWord.trimmed {w : Text} (h : IsTagWord w) : Trimmed w :=
  Text.trimmed_of_visible fun c hc => (isPlain_of_isTagChar (h.chars c hc)).2.1

/-! ## The line -/

/-- What is written on the line of an element; an event is its name and its handler. -/
structure ElementLine where
  tag : Text
  classes : List Text
  ref : Option Text
  attributes : List (Text × Text)
  event : Option (Text × Text)

/-- An event and its handler that can be written; the name may be missing. -/
structure IsEvent (e : Text × Text) : Prop where
  name : ∀ c ∈ e.1, isEventChar c
  trimmed : Trimmed e.2
  ne_nil : e.2 ≠ []
  balanced : Balanced e.2
  line : '\n' ∉ e.2

/-- An event and its handler as they are written. -/
def eventText (e : Text × Text) : Text := e.1 ++ '(' :: (e.2 ++ [')'])

namespace ElementLine

variable (l : ElementLine)

/-- The tag with its classes and its reference. -/
def name : Text := l.tag ++ (l.classes.flatMap ('.' :: ·) ++ l.ref.elim [] ('#' :: ·))

/-- The tag side: the name, and the attributes in brackets if there are any. -/
def side : Text :=
  l.name ++ if l.attributes = [] then [] else '(' :: (attributesText l.attributes ++ [')'])

/-- The header: the tag side, and the event after an arrow if there is one. -/
def header : Text := l.side ++ l.event.elim [] fun e => " -> ".toList ++ eventText e

/-- The line with content or without. -/
def text (inline : Option Text) : Text := l.header ++ inline.elim [] (": ".toList ++ ·)

/-- The line that opens a block. -/
def blockText : Text := l.header ++ [':']

/-- The attribute that an event amounts to. Without a name, the handler in its brackets is bound to a
click. -/
def binding (e : Text × Text) : Text × Text :=
  if e.1 = [] then ("onclick".toList, "__VIAND_CALL__".toList ++ eventText e)
  else ("on".toList ++ e.1.map fun c => if c = '.' then '|' else c, "__VIAND_CALL__".toList ++ e.2)

/-- All attributes: those that are written, the classes, and the event. -/
def entries : List (Text × Text) :=
  l.attributes ++
    ((if l.classes = [] then [] else [("class".toList, List.intercalate [' '] l.classes)]) ++
      (l.event.map binding).toList)

/-- What can be written on the line of an element. -/
structure IsValid : Prop where
  tag : IsTagWord l.tag
  not_slot : l.tag ≠ "slot".toList ∧ ¬ "slot-".toList <+: l.tag
  classes : ∀ w ∈ l.classes, IsTagWord w
  ref : ∀ w ∈ l.ref, IsTagWord w
  attributes : ∀ e ∈ l.attributes, IsAttribute e ∧ Balanced e.1 ∧ Balanced e.2
  distinct : (Entries.keys l.attributes).Nodup
  no_class : "class".toList ∉ Entries.keys l.attributes
  event : ∀ e ∈ l.event, IsEvent e
  no_event : ∀ e ∈ l.event, (binding e).1 ∉ Entries.keys l.attributes

end ElementLine

instance (w : Text) : Decidable (IsTagWord w) :=
  decidable_of_iff (w ≠ [] ∧ w.all isTagChar)
    ⟨fun h => ⟨h.1, List.all_eq_true.1 h.2⟩, fun h => ⟨h.1, List.all_eq_true.2 h.2⟩⟩

instance (e : Text × Text) : Decidable (IsEvent e) :=
  decidable_of_iff (e.1.all isEventChar ∧ Trimmed e.2 ∧ e.2 ≠ [] ∧ Balanced e.2 ∧ '\n' ∉ e.2)
    ⟨fun ⟨hname, htrimmed, hne, hbalanced, hline⟩ =>
        ⟨List.all_eq_true.1 hname, htrimmed, hne, hbalanced, hline⟩,
      fun h => ⟨List.all_eq_true.2 h.name, h.trimmed, h.ne_nil, h.balanced, h.line⟩⟩

/-! ## The parts of the header -/

theorem IsEvent.balanced_name {e : Text × Text} (h : IsEvent e) : Balanced e.1 :=
  balanced_of_isPlain fun c hc => (isPlain_of_isEventChar (h.name c hc)).1

theorem IsEvent.balanced_text {e : Text × Text} (h : IsEvent e) : Balanced (eventText e) :=
  h.balanced_name.append h.balanced.bracketed

/-- A separator that does not begin with a character of names does not occur in an event. -/
theorem IsEvent.free_text {e : Text × Text} (h : IsEvent e) {sep : Text} (hsep : IsSeparator sep)
    {a : Char} (ha : a ∈ sep.head?) (hname : isEventChar a = false) :
    Free sep top (eventText e) := by
  refine Free.append_left ha (fun hmem => ?_) ?_
  · rw [h.name a hmem] at hname
    cases hname
  · rw [top, h.balanced_name]
    exact h.balanced.free_bracketed hsep

theorem IsEvent.trimmed_text {e : Text × Text} (h : IsEvent e) : Trimmed (eventText e) := by
  have hopen : Trimmed (e.1 ++ ['(']) := by
    refine Text.trimmed_of_visible fun c hc => ?_
    rcases List.mem_append.1 hc with hc | hc
    · exact (isPlain_of_isEventChar (h.name c hc)).2
    · rw [List.mem_singleton.1 hc]
      decide
  have htext := Text.trimmed_append hopen (by simp) e.2 (u := [')']) (by decide) (by simp)
  simpa [eventText] using htext

theorem balanced_attributesText {es : List (Text × Text)}
    (h : ∀ e ∈ es, Balanced e.1 ∧ Balanced e.2) : Balanced (attributesText es) := by
  refine Balanced.intercalate (by decide) fun p hp => ?_
  obtain ⟨e, he, rfl⟩ := List.mem_map.1 hp
  exact (h e he).1.append (((h e he).2.cons (by decide)).cons (by decide))

namespace ElementLine

variable {l : ElementLine}

theorem IsValid.mem_name (h : l.IsValid) {c : Char} (hc : c ∈ l.name) :
    isTagChar c ∨ c = '.' ∨ c = '#' := by
  rw [name, List.mem_append, List.mem_append, List.mem_flatMap] at hc
  rcases hc with hc | ⟨w, hw, hc⟩ | hc
  · exact Or.inl (h.tag.chars c hc)
  · rcases List.mem_cons.1 hc with rfl | hc
    · exact Or.inr (Or.inl rfl)
    · exact Or.inl ((h.classes w hw).chars c hc)
  · cases hr : l.ref with
    | none =>
      rw [hr] at hc
      cases hc
    | some w =>
      rw [hr] at hc
      rcases List.mem_cons.1 hc with rfl | hc
      · exact Or.inr (Or.inr rfl)
      · exact Or.inl ((h.ref w hr).chars c hc)

theorem IsValid.not_mem_name (h : l.IsValid) {d : Char}
    (hd : isTagChar d = false ∧ d ≠ '.' ∧ d ≠ '#') : d ∉ l.name := by
  intro hmem
  rcases h.mem_name hmem with hchar | rfl | rfl
  · rw [hchar] at hd
    cases hd.1
  · exact hd.2.1 rfl
  · exact hd.2.2 rfl

theorem IsValid.balanced_name (h : l.IsValid) : Balanced l.name := by
  refine balanced_of_isPlain fun c hc => ?_
  rcases h.mem_name hc with hchar | rfl | rfl
  · exact (isPlain_of_isTagChar hchar).1
  · rfl
  · rfl

theorem IsValid.balanced_attributes (h : l.IsValid) : Balanced (attributesText l.attributes) :=
  balanced_attributesText fun e he => (h.attributes e he).2

theorem IsValid.balanced_side (h : l.IsValid) : Balanced l.side := by
  rw [side]
  split_ifs
  · rw [List.append_nil]
    exact h.balanced_name
  · exact h.balanced_name.append h.balanced_attributes.bracketed

/-- A separator that is not in the name is not in the tag side. -/
theorem IsValid.free_side (h : l.IsValid) {sep : Text} (hsep : IsSeparator sep) {a : Char}
    (ha : a ∈ sep) (hname : isTagChar a = false ∧ a ≠ '.' ∧ a ≠ '#') : Free sep top l.side := by
  have hfree : Free sep top l.name := free_of_not_mem ha (h.not_mem_name hname) top
  rw [side]
  split_ifs
  · rwa [List.append_nil]
  · refine hfree.append ?_ ?_
    · rw [top, h.balanced_name]
      exact h.balanced_attributes.free_bracketed hsep
    · rintro d hd hmem
      cases hd
      exact hsep.not_mem rfl (List.mem_of_mem_tail hmem)

/-! ## The header -/

theorem header_of_none (he : l.event = none) : l.header = l.side := by
  rw [header, he]
  exact List.append_nil _

theorem header_of_some {e : Text × Text} (he : l.event = some e) :
    l.header = l.side ++ (" -> ".toList ++ eventText e) := by
  rw [header, he]
  rfl

theorem IsValid.balanced_header (h : l.IsValid) : Balanced l.header := by
  cases he : l.event with
  | none =>
    rw [header_of_none he]
    exact h.balanced_side
  | some e =>
    rw [header_of_some he]
    exact h.balanced_side.append (Balanced.append (by decide) (h.event e he).balanced_text)

theorem IsValid.free_colon_header (h : l.IsValid) : Free [':'] top l.header := by
  have hside : Free [':'] top l.side :=
    h.free_side isSeparator_colon (List.mem_singleton_self ':') (by decide)
  cases he : l.event with
  | none => rwa [header_of_none he]
  | some e =>
    have hevent : Free [':'] top (" -> ".toList ++ eventText e) :=
      Free.append_left rfl (by decide) ((h.event e he).free_text isSeparator_colon rfl rfl)
    rw [header_of_some he]
    exact hside.append (by rwa [top, h.balanced_side]) (by simp)

theorem IsValid.trimmed_name (h : l.IsValid) : Trimmed l.name := by
  refine Text.trimmed_of_visible fun c hc => ?_
  rcases h.mem_name hc with hchar | rfl | rfl
  · exact (isPlain_of_isTagChar hchar).2.1
  · decide
  · decide

theorem IsValid.name_ne_nil (h : l.IsValid) : l.name ≠ [] := by
  simp [name, h.tag.ne_nil]

theorem IsValid.trimmed_side (h : l.IsValid) : Trimmed l.side := by
  rw [side]
  split_ifs
  · rw [List.append_nil]
    exact h.trimmed_name
  · exact Text.trimmed_append h.trimmed_name h.name_ne_nil ('(' :: attributesText l.attributes)
      (u := [')']) (by decide) (by simp)

/-- The last top-level arrow of a header is the one before the event. -/
theorem IsValid.splitArrow_header (h : l.IsValid) :
    splitArrow l.header = (l.side, l.event.elim [] eventText) := by
  cases he : l.event with
  | none =>
    have hfree : Free "->".toList top l.side :=
      h.free_side isSeparator_arrow (a := '>') (by decide) (by decide)
    rw [header_of_none he, splitArrow, Text.cutLast?, cutLastFrom?_of_free hfree]
    rfl
  | some e =>
    have hscan : top.scan (l.side ++ [' ']) = top := by
      rw [scan_append, top, h.balanced_side]
      rfl
    have hfree : Free "->".toList top (' ' :: eventText e) :=
      Free.append_left (t := [' ']) rfl (by decide)
        ((h.event e he).free_text isSeparator_arrow rfl rfl)
    have hcut := cutLastFrom?_append isSeparator_arrow hscan hfree
    have hheader : l.header = l.side ++ [' '] ++ ("->".toList ++ ' ' :: eventText e) := by
      rw [header_of_some he]
      simp
    have hpad : Blank [' '] := Text.blank_replicate 1
    have hside := Text.trim_eq Text.blank_nil h.trimmed_side hpad
    have hevent := Text.trim_eq hpad (h.event e he).trimmed_text Text.blank_nil
    rw [List.append_nil] at hevent
    rw [hheader, splitArrow, Text.cutLast?, hcut]
    exact Prod.ext hside hevent

end ElementLine

end ComponentLang
