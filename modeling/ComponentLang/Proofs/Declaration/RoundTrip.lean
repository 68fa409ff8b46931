import ComponentLang.Proofs.Text.Basic
import ComponentLang.Proofs.Text.Trim
import ComponentLang.Proofs.Text.Word
import ComponentLang.Scope.Body

/-!
# Declarations that are written are read

* `DeclarationLine` : a name with a type and a value, either of which may be missing;
* `DeclarationLine.typeAndValue` : what is written behind the name, which is read again
  (`annotation?_typeAndValue`);
* `propText`, `stateText`, `derivedText` : the lines of a prop, a state and a derived value;
* `declare_written` : such a line adds one declaration to the manifest, and nothing else.
-/

namespace ComponentLang

open Text (Trimmed IsName)

/-- What a line declares: a name, its type and its value. -/
structure DeclarationLine where
  id : Text
  type : Option Text
  value : Option Text

namespace DeclarationLine

/-- The name is an identifier, and type and value are not blank. The type ends before an equals sign,
and the value with its line. -/
structure IsValid (l : DeclarationLine) : Prop where
  id : IsName l.id
  type : ∀ t ∈ l.type, Trimmed t ∧ t ≠ [] ∧ '=' ∉ t
  value : ∀ v ∈ l.value, Trimmed v ∧ v ≠ [] ∧ '\n' ∉ v

/-- The type behind a colon and the value behind an equals sign, as far as there are any. -/
def typeAndValue (l : DeclarationLine) : Text :=
  (l.type.map (": ".toList ++ ·)).getD [] ++ (l.value.map (" = ".toList ++ ·)).getD []

/-- The line of a prop. -/
def propText (l : DeclarationLine) : Text := "@prop ".toList ++ (l.id ++ l.typeAndValue)

/-- The line of a state. -/
def stateText (l : DeclarationLine) : Text := '$' :: (l.id ++ l.typeAndValue)

/-- The line of a derived value with the given expression. -/
def derivedText (l : DeclarationLine) (expr : Text) : Text :=
  "sync $".toList ++ (l.id ++ (" = ".toList ++ expr))

/-- What the line declares, if it is that of a prop or state. -/
def declaration (l : DeclarationLine) (line : Int) : Declaration :=
  ⟨l.id, l.type.getD Declaration.anyType, l.value, line⟩

/-! ## Types and values -/

theorem trim_space {t : Text} (h : Trimmed t) : Text.trim (' ' :: t) = t :=
  (Text.trim_blank_append (Text.blank_replicate 1) t).trans h.trim

theorem onOneLine_of_not_mem {t : Text} (h : '\n' ∉ t) : Text.onOneLine t := by
  rw [Text.onOneLine, List.all_eq_true]
  intro c hc
  rw [decide_eq_true_eq]
  rintro rfl
  exact h hc

theorem value?_space {v : Text} (h : Trimmed v) (hne : v ≠ []) (hfeed : '\n' ∉ v) :
    Declaration.value? (' ' :: v) = some (some v) := by
  rw [Declaration.value?, trim_space h, if_pos (onOneLine_of_not_mem hfeed), Text.nonempty?,
    if_neg hne]

theorem typeOf_space {t pad : Text} (h : Trimmed t) (hne : t ≠ []) (hpad : Text.Blank pad) :
    Declaration.typeOf (' ' :: (t ++ pad)) = t := by
  have htrim : Text.trim (' ' :: (t ++ pad)) = t := Text.trim_eq (Text.blank_replicate 1) h hpad
  rw [Declaration.typeOf, htrim, Text.nonempty?, if_neg hne, Option.getD_some]

/-- A type alone goes on to the end of the line. -/
theorem typed?_type {t : Text} (h : Trimmed t) (hne : t ≠ []) (heq : '=' ∉ t) :
    Declaration.typed? (' ' :: t) = some (t, none) := by
  have hnot : '=' ∉ ' ' :: t := by simp [heq]
  have htype := typeOf_space h hne Text.blank_nil
  rw [List.append_nil] at htype
  rw [Declaration.typed?, Text.splitFirst?_of_not_mem hnot]
  dsimp only
  rw [if_neg (List.cons_ne_nil _ _), htype]

/-- The first equals sign ends the type, whatever the value holds. -/
theorem typed?_type_value {t v : Text} (ht : Trimmed t) (hne : t ≠ []) (heq : '=' ∉ t)
    (hv : Declaration.value? (' ' :: v) = some (some v)) :
    Declaration.typed? (' ' :: (t ++ " = ".toList ++ v)) = some (t, some v) := by
  have hnot : '=' ∉ ' ' :: (t ++ [' ']) := by simp [heq]
  have hsplit : ' ' :: (t ++ " = ".toList ++ v) = (' ' :: (t ++ [' '])) ++ '=' :: ' ' :: v := by simp
  rw [Declaration.typed?, hsplit, Text.splitFirst?_append hnot]
  dsimp only
  rw [if_neg (List.cons_ne_nil _ _), hv, Option.map_some]
  exact congrArg (fun t => some (t, some v)) (typeOf_space ht hne (Text.blank_replicate 1))

/-- What is written behind the name is read again. Without a type, any will do. -/
theorem annotation?_typeAndValue {l : DeclarationLine} (h : l.IsValid) :
    Declaration.annotation? l.typeAndValue = some (l.type.getD Declaration.anyType, l.value) := by
  obtain ⟨id, type, value⟩ := l
  obtain ⟨-, htype, hvalue⟩ := h
  -- a colon leads to the type, and an equals sign after a blank to the value
  have hcolon : ∀ r, Declaration.annotation? (':' :: r) = Declaration.typed? r := fun r => rfl
  have hequals : ∀ r, Declaration.annotation? (' ' :: '=' :: r) =
      (Declaration.value? r).map fun v => (Declaration.anyType, v) := fun r => rfl
  have hread : ∀ v ∈ value, Declaration.value? (' ' :: v) = some (some v) := fun v hv =>
    value?_space (hvalue v hv).1 (hvalue v hv).2.1 (hvalue v hv).2.2
  cases type with
  | none =>
    cases value with
    | none => rfl
    | some v => exact (hequals (' ' :: v)).trans (congrArg (Option.map _) (hread v rfl))
  | some t =>
    obtain ⟨htrim, hne, heq⟩ := htype t rfl
    cases value with
    | none =>
      have hline : typeAndValue ⟨id, some t, none⟩ = ':' :: ' ' :: t := by simp [typeAndValue]
      rw [hline, hcolon, typed?_type htrim hne heq]
      rfl
    | some v =>
      have hline : typeAndValue ⟨id, some t, some v⟩ = ':' :: ' ' :: (t ++ " = ".toList ++ v) := by
        simp [typeAndValue]
      rw [hline, hcolon, typed?_type_value htrim hne heq (hread v rfl)]
      rfl

theorem expr?_space {e : Text} (h : Trimmed e) (hne : e ≠ []) (hfeed : '\n' ∉ e) :
    Derived.expr? (' ' :: e) = some e := by
  rw [Derived.expr?, trim_space h]
  cases e with
  | nil => exact absurd rfl hne
  | cons c e => exact if_pos (onOneLine_of_not_mem hfeed)

/-- What stands behind the name neither continues nor quotes it. -/
theorem head?_typeAndValue (l : DeclarationLine) :
    ∀ c ∈ l.typeAndValue.head?, Text.isWord c = false ∧ c ≠ '\x22' := by
  obtain ⟨id, type, value⟩ := l
  cases type <;> cases value <;> rintro c ⟨⟩ <;> decide

/-! ## Lines -/

theorem parseProp?_propText {l : DeclarationLine} (h : l.IsValid) (line : Int) :
    Declaration.parseProp? l.propText line = some (l.declaration line) := by
  have hname := h.id.name?_append fun c hc => (l.head?_typeAndValue c hc).1
  have hkeyword : Text.afterSpaced? "@prop".toList l.propText = some (l.id ++ l.typeAndValue) :=
    Text.afterSpaced?_append "@prop".toList (h.id.head?_append l.typeAndValue)
  have hquote : ∀ t : Text, (∀ c ∈ t.head?, c ≠ '\x22') → Text.dropLead ['\x22'] t = t := by
    intro t ht
    cases t with
    | nil => rfl
    | cons c t => simp [Text.dropLead, Text.after?, (ht c rfl).symm]
  have hid : ∀ c ∈ (l.id ++ l.typeAndValue).head?, c ≠ '\x22' := by
    obtain ⟨c, r, hid, hstart, -⟩ := h.id
    rw [hid]
    rintro d ⟨⟩ rfl
    exact absurd hstart (by decide)
  rw [Declaration.parseProp?, hkeyword, Option.bind_some, hquote _ hid, hname, Option.bind_some]
  dsimp only
  rw [hquote _ fun c hc => (l.head?_typeAndValue c hc).2, Declaration.make?,
    annotation?_typeAndValue h]
  rfl

theorem parseState?_stateText {l : DeclarationLine} (h : l.IsValid) (line : Int) :
    Declaration.parseState? l.stateText line = some (l.declaration line) := by
  have hname := h.id.name?_append fun c hc => (l.head?_typeAndValue c hc).1
  have hkeyword : Text.after? ['$'] l.stateText = some (l.id ++ l.typeAndValue) :=
    Text.after?_eq_some_iff.2 rfl
  rw [Declaration.parseState?, hkeyword, Option.bind_some, hname, Option.bind_some]
  dsimp only
  rw [Declaration.make?, annotation?_typeAndValue h]
  rfl

theorem parse?_derivedText {l : DeclarationLine} (h : l.IsValid) {expr : Text}
    (hexpr : l.value = some expr) (line : Int) :
    Derived.parse? (l.derivedText expr) line = some ⟨l.id, expr, line⟩ := by
  obtain ⟨htrim, hne, hfeed⟩ := h.value expr hexpr
  have hkeyword : Text.afterSpaced? "sync".toList (l.derivedText expr) =
      some ('$' :: (l.id ++ ' ' :: '=' :: ' ' :: expr)) :=
    Text.afterSpaced?_append "sync".toList (by rintro c ⟨⟩; decide)
  have hsigil : Text.after? ['$'] ('$' :: (l.id ++ ' ' :: '=' :: ' ' :: expr)) =
      some (l.id ++ ' ' :: '=' :: ' ' :: expr) := Text.after?_eq_some_iff.2 rfl
  have hname : Text.name? (l.id ++ ' ' :: '=' :: ' ' :: expr) =
      some (l.id, ' ' :: '=' :: ' ' :: expr) := h.id.name?_append (by rintro c ⟨⟩; decide)
  have hequals : Text.after? ['='] (Text.trimStart (' ' :: '=' :: ' ' :: expr)) =
      some (' ' :: expr) := rfl
  rw [Derived.parse?, hkeyword, Option.bind_some, hsigil, Option.bind_some, hname, Option.bind_some]
  dsimp only
  rw [hequals, Option.bind_some, expr?_space htrim hne hfeed, Option.map_some]

end DeclarationLine

/-- **A written declaration is read, and nothing else happens.** The line of a prop or state adds one
declaration, with the name, the type or that of any value, the value if there is one, and the line of
the token. The line of a derived value adds one with the name and the expression. All the rest of the
manifest stays, and so do the open blocks. -/
theorem declare_written {l : DeclarationLine} (h : l.IsValid) (s : Scope) (t : Token) :
    (t.category = .prop → t.text = l.propText → s.declare t = .ok { s with manifest :=
      { s.manifest with props := s.manifest.props ++ [l.declaration t.line] } }) ∧
    (t.category = .state → t.text = l.stateText → s.declare t = .ok { s with manifest :=
      { s.manifest with state := s.manifest.state ++ [l.declaration t.line] } }) ∧
    ∀ expr, l.value = some expr → t.category = .derived → t.text = l.derivedText expr →
      s.declare t = .ok { s with manifest :=
        { s.manifest with derived := s.manifest.derived ++ [⟨l.id, expr, t.line⟩] } } := by
  refine ⟨fun hcategory htext => ?_, fun hcategory htext => ?_, fun expr hexpr hcategory htext => ?_⟩
  · rw [Scope.declare, Manifest.declare?, hcategory, htext]
    simp only [DeclarationLine.parseProp?_propText h, Option.map_some]
  · rw [Scope.declare, Manifest.declare?, hcategory, htext]
    simp only [DeclarationLine.parseState?_stateText h, Option.map_some]
  · rw [Scope.declare, Manifest.declare?, hcategory, htext]
    simp only [DeclarationLine.parse?_derivedText h hexpr, Option.map_some]

/-- A type with a colon in it, and a value with all the signs that divide lines. -/
def settled : DeclarationLine where
  id := "a_1".toList
  type := some "map<a: b>".toList
  value := some "\x7b k: \x22x = y\x22 \x7d".toList

/-- All three kinds of lines are read. A derived value has no type. -/
theorem declare_written_settled :
    Scope.start.declare ⟨5, 0, .prop, "@prop a_1: map<a: b> = \x7b k: \x22x = y\x22 \x7d".toList, [], 0⟩ =
      .ok ⟨{ Manifest.empty with props :=
        [⟨"a_1".toList, "map<a: b>".toList, some "\x7b k: \x22x = y\x22 \x7d".toList, 5⟩] }, []⟩ ∧
    Scope.start.declare ⟨6, 0, .state, "$a_1: map<a: b> = \x7b k: \x22x = y\x22 \x7d".toList, [], 0⟩ =
      .ok ⟨{ Manifest.empty with state :=
        [⟨"a_1".toList, "map<a: b>".toList, some "\x7b k: \x22x = y\x22 \x7d".toList, 6⟩] }, []⟩ ∧
    Scope.start.declare ⟨7, 0, .derived, "sync $a_1 = \x7b k: \x22x = y\x22 \x7d".toList, [], 0⟩ =
      .ok ⟨{ Manifest.empty with derived :=
        [⟨"a_1".toList, "\x7b k: \x22x = y\x22 \x7d".toList, 7⟩] }, []⟩ := by
  have hvalid : settled.IsValid := by
    refine ⟨⟨'a', "_1".toList, rfl, by decide, List.all_eq_true.1 (by decide)⟩, ?_, ?_⟩
    · rintro t ⟨⟩
      decide
    · rintro v ⟨⟩
      decide
  refine ⟨?_, ?_, ?_⟩
  · exact (declare_written hvalid Scope.start ⟨5, 0, .prop, settled.propText, [], 0⟩).1 rfl rfl
  · exact (declare_written hvalid Scope.start ⟨6, 0, .state, settled.stateText, [], 0⟩).2.1 rfl rfl
  · exact (declare_written hvalid Scope.start
      ⟨7, 0, .derived, settled.derivedText "\x7b k: \x22x = y\x22 \x7d".toList, [], 0⟩).2.2 _ rfl rfl rfl

end ComponentLang
