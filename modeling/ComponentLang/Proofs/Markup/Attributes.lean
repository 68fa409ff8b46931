import ComponentLang.Markup.Attributes
import ComponentLang.Proofs.Nesting.Cut
import ComponentLang.Proofs.Nesting.Padding
import ComponentLang.Proofs.Table.Merge
import Mathlib.Data.List.Basic

/-!
# Attribute lists, written and read

* `attributesText es` : the pairs as `key: value`, with commas between them;
* `IsAttribute e` : a pair that can be written like this. Its key is a name, or a group and a name with
  a colon between them (`IsGrouped`);
* `readAttribute?_text` : one such pair is read back;
* `filterMap_split_text` : so is a list of them;
* `entries_parse_text` : hence attribute lists are read back.
-/

namespace ComponentLang

open Nesting
open Text (Blank Trimmed trim trimEnd isBlank)

/-- A pair as it is written. -/
def attributeText (e : Text × Text) : Text := e.1 ++ ':' :: ' ' :: e.2

/-- An attribute list as it is written. -/
def attributesText (es : List (Text × Text)) : Text :=
  List.intercalate ", ".toList (es.map attributeText)

/-- The key holds no separator; if it asks for completion, the value offers none. -/
structure IsNamed (key value : Text) : Prop where
  ne_nil : key ≠ []
  comma : ¬ Occurs [','] key
  colon : ¬ Occurs [':'] key
  incomplete : key ∈ groupKeys → ¬ Occurs [':'] value

/-- The key is one that asks for completion, a colon and a name without separators. -/
def IsGrouped (key : Text) : Prop :=
  ∃ group ∈ groupKeys, ∃ name, key = group ++ ':' :: name ∧ Trimmed name ∧
    ¬ Occurs [','] name ∧ ¬ Occurs [':'] name

/-- A key and a value that can be written into an attribute list. Closing brackets without a partner
are allowed in both. -/
structure IsAttribute (e : Text × Text) : Prop where
  trimmed_key : Trimmed e.1
  trimmed_value : Trimmed e.2
  closed_key : top.scan e.1 = top
  closed_value : top.scan e.2 = top
  comma : ¬ Occurs [','] e.2
  key : IsNamed e.1 e.2 ∨ IsGrouped e.1

instance (key value : Text) : Decidable (IsNamed key value) :=
  decidable_of_iff (key ≠ [] ∧ ¬ Occurs [','] key ∧ ¬ Occurs [':'] key ∧
      (groupKeys.contains key = true → ¬ Occurs [':'] value))
    ⟨fun ⟨hne, hcomma, hcolon, hvalue⟩ =>
        ⟨hne, hcomma, hcolon, fun hk => hvalue (List.contains_iff_mem.2 hk)⟩,
      fun h => ⟨h.ne_nil, h.comma, h.colon, fun hk => h.incomplete (List.contains_iff_mem.1 hk)⟩⟩

/-- The name is what stands behind the group and its colon. -/
theorem isGrouped_iff {key : Text} :
    IsGrouped key ↔ ∃ group ∈ groupKeys, key = group ++ ':' :: key.drop (group.length + 1) ∧
      Trimmed (key.drop (group.length + 1)) ∧ ¬ Occurs [','] (key.drop (group.length + 1)) ∧
        ¬ Occurs [':'] (key.drop (group.length + 1)) := by
  constructor
  · rintro ⟨group, hg, name, rfl, hname⟩
    have hdrop : (group ++ ':' :: name).drop (group.length + 1) = name := by simp
    exact ⟨group, hg, by rw [hdrop], by rwa [hdrop]⟩
  · rintro ⟨group, hg, heq, hname⟩
    exact ⟨group, hg, _, heq, hname⟩

instance (key : Text) : Decidable (IsGrouped key) := decidable_of_iff _ isGrouped_iff.symm

instance (e : Text × Text) : Decidable (IsAttribute e) :=
  decidable_of_iff (Trimmed e.1 ∧ Trimmed e.2 ∧ top.scan e.1 = top ∧ top.scan e.2 = top ∧
      ¬ Occurs [','] e.2 ∧ (IsNamed e.1 e.2 ∨ IsGrouped e.1))
    ⟨fun ⟨hk, hv, hk', hv', hcomma, hkey⟩ => ⟨hk, hv, hk', hv', hcomma, hkey⟩,
      fun h => ⟨h.trimmed_key, h.trimmed_value, h.closed_key, h.closed_value, h.comma, h.key⟩⟩

theorem cutColon?_append {t : Text} (h : ¬ Occurs [':'] t) (ht : top.scan t = top) (r : Text) :
    Text.cutColon? (t ++ ':' :: r) = some (t, r) :=
  cutFrom?_append isSeparator_colon (free_iff.2 h) ht r

theorem cutColon?_eq_none {t : Text} (h : ¬ Occurs [':'] t) : Text.cutColon? t = none :=
  cutFrom?_of_free (free_iff.2 h)

/-! ## One pair -/

theorem trim_text {e : Text × Text} (h : IsAttribute e) :
    ∃ r, trim (attributeText e) = e.1 ++ ':' :: r ∧ trim r = e.2 := by
  obtain ⟨r, hr, htrim⟩ := Text.exists_trim_colon h.trimmed_key (' ' :: e.2)
  have hvalue := Text.trim_eq (Text.blank_replicate 1) h.trimmed_value Text.blank_nil
  rw [List.append_nil] at hvalue
  exact ⟨r, hr, htrim.trans hvalue⟩

theorem readAttribute?_of_cut {part key value : Text}
    (h : Text.cutColon? (trim part) = some (key, value)) :
    readAttribute? part = some (completeKey (trim key) (trim value)) := by
  rw [readAttribute?]
  split
  · next hnil =>
    rw [hnil] at h
    cases h
  · next => rw [h]

theorem completeKey_of_isNamed {key value : Text} (h : IsNamed key value) :
    completeKey key value = (key, value) := by
  rw [completeKey]
  by_cases hk : key ∈ groupKeys
  · rw [if_pos (by simpa using hk), cutColon?_eq_none (h.incomplete hk)]
  · rw [if_neg (by simpa using hk)]

theorem completeKey_group {group name r : Text} (hg : group ∈ groupKeys) (hname : Trimmed name)
    (hcolon : ¬ Occurs [':'] name) (hscan : top.scan name = top) :
    completeKey group (name ++ ':' :: r) = (group ++ ':' :: name, trim r) := by
  rw [completeKey, if_pos (by simpa using hg), cutColon?_append hcolon hscan]
  simp only [hname.trim]

theorem isPlain_of_mem_group {group : Text} (h : group ∈ groupKeys) :
    ∀ c ∈ group, isPlain c ∧ c ≠ ':' ∧ c ≠ ',' ∧ ¬ isBlank c := by
  have hall : groupKeys.all (fun g => g.all fun c =>
      isPlain c && c != ':' && c != ',' && !isBlank c) = true := rfl
  simpa [and_assoc] using List.all_eq_true.1 hall group h

/-- A pair that is written is read back. -/
theorem readAttribute?_text {e : Text × Text} (h : IsAttribute e) :
    readAttribute? (attributeText e) = some e := by
  obtain ⟨r, hpair, hr⟩ := trim_text h
  obtain ⟨key, value⟩ := e
  rcases h.key with hnamed | ⟨group, hg, name, rfl, hname, _, hcolon⟩
  · have hcut := cutColon?_append hnamed.colon h.closed_key r
    rw [← hpair] at hcut
    rw [readAttribute?_of_cut hcut, h.trimmed_key.trim, hr, completeKey_of_isNamed hnamed]
  · have hplain := isPlain_of_mem_group hg
    have hscan : top.scan group = top := scan_of_isPlain (fun c hc => (hplain c hc).1) 0
    have hfree : Free [':'] top group :=
      free_of_not_mem (by decide) (fun hmem => (hplain ':' hmem).2.1 rfl) top
    have hcut := cutColon?_append (free_iff.1 hfree) hscan (name ++ ':' :: r)
    have hclosed : top.scan name = top := by
      have hkey := h.closed_key
      rwa [scan_append, hscan] at hkey
    have htrimmed : Trimmed group := by
      refine ⟨fun c hc => ?_, fun c hc => ?_⟩
      · exact (hplain c (List.mem_of_mem_head? hc)).2.2.2
      · exact (hplain c (List.mem_of_mem_getLast? hc)).2.2.2
    obtain ⟨r', hrest, hr'⟩ := Text.exists_trim_colon hname r
    rw [List.append_assoc, List.cons_append] at hpair
    rw [← hpair] at hcut
    rw [readAttribute?_of_cut hcut, htrimmed.trim, hrest,
      completeKey_group hg hname hcolon hclosed, hr', hr]

/-! ## The list -/

/-- Blanks after the separators belong to the parts that follow them. -/
theorem exists_parts_after (sep p : Text) (ps : List Text) :
    ∃ ps', ps'.map trim = (p :: ps).map trim ∧
      List.intercalate sep ps' = List.intercalate (sep ++ [' ']) (p :: ps) := by
  induction ps generalizing p with
  | nil => exact ⟨[p], rfl, rfl⟩
  | cons q ps ih =>
    obtain ⟨ps', hmap, hjoin⟩ := ih q
    obtain ⟨q', rest, rfl, hq, hrest⟩ := List.map_eq_cons_iff.1 hmap
    have hpad := Text.trim_blank_append (Text.blank_replicate 1) q'
    refine ⟨p :: (' ' :: q') :: rest, ?_, ?_⟩
    · rw [List.map_cons, List.map_cons, List.map_cons, List.map_cons, ← hq, ← hrest]
      exact congrArg (fun t => trim p :: t :: rest.map trim) hpad
    · rw [List.intercalate_cons_cons, List.intercalate_cons_cons, intercalate_grow, hjoin]
      simp

theorem readAttribute?_trim (part : Text) : readAttribute? (trim part) = readAttribute? part := by
  rw [readAttribute?, readAttribute?, Text.trim_trim]

theorem free_comma_key {key value : Text} (h : IsNamed key value ∨ IsGrouped key) :
    Free [','] top key := by
  rcases h with hnamed | ⟨group, hg, name, rfl, _, hcomma, _⟩
  · exact free_iff.2 hnamed.comma
  · have hplain := isPlain_of_mem_group hg
    have hscan : top.scan group = top := scan_of_isPlain (fun c hc => (hplain c hc).1) 0
    refine Free.append_left rfl (fun hmem => (hplain ',' hmem).2.2.1 rfl) ?_
    rw [hscan]
    exact Free.append_left (t := [':']) rfl (by decide) (free_iff.2 hcomma)

/-- A pair that is written holds no comma, and a scan of it comes back to the top level. -/
theorem part_text {e : Text × Text} (h : IsAttribute e) :
    ¬ Occurs [','] (attributeText e) ∧ top.scan (attributeText e) = top := by
  have hvalue : Free [','] top (':' :: ' ' :: e.2) :=
    Free.append_left (t := [':', ' ']) rfl (by decide) (free_iff.2 h.comma)
  constructor
  · refine free_iff.1 ((free_comma_key h.key).append ?_ (by simp))
    rwa [h.closed_key]
  · rw [attributeText, scan_append, h.closed_key]
    exact h.closed_value

theorem parted_texts {es : List (Text × Text)} (hne : es ≠ []) (h : ∀ e ∈ es, IsAttribute e) :
    Parted [','] top (es.map attributeText) := by
  have hpart : ∀ p ∈ es.map attributeText, ¬ Occurs [','] p ∧ top.scan p = top := by
    intro p hp
    obtain ⟨e, he, rfl⟩ := List.mem_map.1 hp
    exact part_text (h e he)
  refine parted_iff.2 ⟨by simpa using hne, fun p hp => (hpart p hp).1, fun p hp => ?_⟩
  exact (hpart p (List.dropLast_subset _ hp)).2

/-- The pairs of a list that is written are read back. -/
theorem filterMap_split_text {es : List (Text × Text)} (h : ∀ e ∈ es, IsAttribute e) :
    (Text.split [','] (attributesText es)).filterMap readAttribute? = es := by
  cases es with
  | nil => rfl
  | cons e es =>
    -- the blanks after the commas go to the parts, where they are not seen
    obtain ⟨ps, hmap, hjoin⟩ := exists_parts_after [','] (attributeText e) (es.map attributeText)
    have hps := (parted_texts (List.cons_ne_nil e es) h).of_map_trim isSeparator_comma
      (by rw [List.forall_mem_singleton]; decide) hmap
    have hsplit : Text.split [','] (attributesText (e :: es)) = ps := by
      rw [Text.split, ← splitFrom_intercalate isSeparator_comma hps, hjoin]
      rfl
    have hread : readAttribute? ∘ trim = readAttribute? := funext readAttribute?_trim
    calc (Text.split [','] (attributesText (e :: es))).filterMap readAttribute?
        = (ps.map trim).filterMap readAttribute? := by rw [hsplit, List.filterMap_map, hread]
      _ = ((e :: es).map attributeText).filterMap readAttribute? := by
          rw [hmap, List.filterMap_map, hread, List.map_cons]
      _ = (e :: es).filterMap some := by
          rw [List.filterMap_map]
          exact List.filterMap_congr fun e' he' => readAttribute?_text (h e' he')
      _ = e :: es := List.filterMap_some

/-- Attribute lists are read back: pairs with distinct keys, written as `key: value` and joined by commas,
are the pairs of the table, in their order. -/
theorem entries_parse_text {es : List (Text × Text)} (h : ∀ e ∈ es, IsAttribute e)
    (hkeys : (Entries.keys es).Nodup) : (parseAttributes (attributesText es)).entries = es := by
  rw [parseAttributes, filterMap_split_text h, Table.entries_insertAll (by simpa using hkeys),
    Table.entries_empty, List.nil_append]

/-- The attributes of an input field. -/
def fieldAttributes : List (Text × Text) :=
  [("bind:value".toList, "$name".toList), ("title".toList, "f(a, 'b: c') : d".toList),
    ("class:row[1, 2]".toList, "$on ? 'x, y' : z".toList), ("style".toList, [])]

theorem entries_parse_text_field :
    (∀ e ∈ fieldAttributes, IsAttribute e) ∧ (Entries.keys fieldAttributes).Nodup ∧
      (parseAttributes ("bind:value: $name, title: f(a, 'b: c') : d, " ++
        "class:row[1, 2]: $on ? 'x, y' : z, style: ").toList).entries = fieldAttributes := by
  have hes : ∀ e ∈ fieldAttributes, IsAttribute e := by decide
  have hkeys : (Entries.keys fieldAttributes).Nodup := by decide
  exact ⟨hes, hkeys, entries_parse_text hes hkeys⟩

end ComponentLang
