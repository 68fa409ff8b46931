import ComponentLang.Phrases
import ComponentLang.Proofs.Table.Merge
import ComponentLang.Proofs.Text.Written

/-!
# Writing phrases and reading them again

* `quoted`, `unquote_quoted` : a text in double quotes, whatever stands in it, loses these quotes and no
  others;
* `Phrases.lines`, `Phrases.render` : the lines of a key with its wordings indented, and a table of them;
* `Phrases.IsName` : what can be a key or a locale;
* `addLines_keyLine`, `addLines_wordingLine` : what one line adds to a table;
* `addLines_lines`, `addLines_flatMap` : the lines of a key add it with all its wordings, and those of a
  table add them all;
* `parse_render_phrases` : a table is read back as it was.
-/

namespace ComponentLang

open Text (trim Trimmed IsKey pairLine)

/-! ## Quotes -/

/-- The text in double quotes. -/
def quoted (t : Text) : Text := '\x22' :: (t ++ ['\x22'])

theorem trimmed_quoted (t : Text) : Trimmed (quoted t) := by
  have hquote : Trimmed ['\x22'] := by decide
  exact Text.trimmed_append hquote (List.cons_ne_nil _ _) t hquote (List.cons_ne_nil _ _)

/-- Quotes inside of the text make no difference. -/
theorem unquote_quoted (t : Text) : unquote (quoted t) = t := by
  have hend : Text.endsWith '\x22' (t ++ ['\x22']) := by simp [Text.endsWith]
  rw [unquote, (trimmed_quoted t).trim, quoted]
  simp only [decide_true, Bool.true_or, Bool.true_and, hend, if_true, List.dropLast_concat]

theorem unquote_congr {t u : Text} (h : trim t = trim u) : unquote t = unquote u := by
  rw [unquote, unquote, h]

namespace Phrases

/-! ## Written tables -/

/-- The line of a key. -/
def keyLine (key : Text) : Text := key ++ [':']

/-- The line of a wording, behind its locale. -/
def wordingLine (w : Text × Text) : Text := pairLine (w.1, quoted w.2)

/-- The lines of a key and its wordings. -/
def lines (e : Text × Table Text) : List Text := keyLine e.1 :: e.2.entries.map wordingLine

/-- A table as a text. -/
def render (table : Phrases) : Text := Text.unlines (table.entries.flatMap lines)

/-- What can be a key or a locale: a trimmed text on one line without a colon that would not be taken
for a comment. -/
structure IsName (t : Text) : Prop extends IsKey t where
  hash : ¬ Text.startsWith ['#'] t

instance (t : Text) : Decidable (IsName t) :=
  decidable_of_iff (IsKey t ∧ ¬ Text.startsWith ['#'] t)
    ⟨fun ⟨hkey, hhash⟩ => ⟨hkey, hhash⟩, fun h => ⟨h.toIsKey, h.hash⟩⟩

/-- Keys and locales are names, and the wordings stand on one line each. -/
structure IsWritable (table : Phrases) : Prop where
  key : ∀ e ∈ table.entries, IsName e.1
  locale : ∀ e ∈ table.entries, ∀ w ∈ e.2.entries, IsName w.1
  feed : ∀ e ∈ table.entries, ∀ w ∈ e.2.entries, '\n' ∉ w.2

/-! ## What one line adds -/

/-- What begins with a name and a colon is no comment, and the name is read from it. -/
theorem IsName.speaks {k : Text} (h : IsName k) (r : Text) :
    speaks (k ++ ':' :: r) = true ∧ splitEntry (k ++ ':' :: r) = (k, r) := by
  constructor
  · have hne : k ++ ':' :: r ≠ [] := List.append_ne_nil_of_right_ne_nil _ (List.cons_ne_nil _ _)
    have hhash : Text.startsWith ['#'] (k ++ ':' :: r) = false := by
      cases k with
      | nil => rfl
      | cons c k =>
        have hc : '#' ≠ c := by
          rintro rfl
          exact h.hash rfl
        rw [List.cons_append, Text.startsWith, Text.after?, if_neg hc]
        rfl
    rw [Phrases.speaks, hhash, decide_eq_true hne]
    rfl
  · rw [splitEntry, Text.splitFirst?_append h.colon]
    exact congrArg (·, r) h.trimmed.trim

theorem IsName.trimmed_keyLine {k : Text} (h : IsName k) : Trimmed (keyLine k) := by
  have hcolon : Trimmed [':'] := by decide
  by_cases hnil : k = []
  · rw [keyLine, hnil]
    exact hcolon
  · exact Text.trimmed_append h.trimmed hnil [] hcolon (List.cons_ne_nil _ _)

theorem addLines_keyLine {k : Text} (h : IsName k) (table : Phrases) (current : Option Text)
    (rest : List Text) :
    addLines table current (keyLine k :: rest) = addLines (table.insert k .empty) (some k) rest := by
  obtain ⟨hspeaks, hsplit⟩ := h.speaks []
  have hline := h.trimmed_keyLine
  rw [← keyLine] at hspeaks hsplit
  cases current with
  | none =>
    rw [addLines, hline.trim, hline.startsBlank, hspeaks, hsplit]
    rfl
  | some k' =>
    rw [addLines, hline.trim, hline.startsBlank, hspeaks, hsplit]
    rfl

theorem addLines_wordingLine {w : Text × Text} (h : IsName w.1) (table : Phrases) (k : Text)
    (rest : List Text) :
    addLines table (some k) (wordingLine w :: rest) =
      addLines (setWording table k w.1 w.2) (some k) rest := by
  obtain ⟨r, hr, htrim⟩ := Text.trim_pairLine (e := (w.1, quoted w.2)) h.trimmed (trimmed_quoted w.2)
  obtain ⟨hspeaks, hsplit⟩ := h.speaks r
  have hblank : Text.startsBlank (wordingLine w) = true := Text.startsBlank_inset _
  have hunquote : unquote r = w.2 := by
    rw [← unquote_quoted w.2]
    exact unquote_congr (htrim.trans (trimmed_quoted w.2).trim.symm)
  rw [addLines, hblank, wordingLine, hr, hspeaks, hsplit, hunquote]
  rfl

/-! ## Keys with their wordings -/

theorem setWording_insert (table : Phrases) (k : Text) (ws : Table Text) (w : Text × Text) :
    setWording (table.insert k ws) k w.1 w.2 = table.insert k (ws.insert w.1 w.2) := by
  have hget : (table.insert k ws).get? k = some ws := Entries.get?_put_self k ws _
  ext1
  rw [setWording, hget]
  exact Entries.put_put_self k ws _ _

theorem addLines_wordings {ws : List (Text × Text)} (h : ∀ w ∈ ws, IsName w.1) (table : Phrases)
    (k : Text) (u : Table Text) (rest : List Text) :
    addLines (table.insert k u) (some k) (ws.map wordingLine ++ rest) =
      addLines (table.insert k (u.insertAll ws)) (some k) rest := by
  induction ws generalizing u with
  | nil => rfl
  | cons w ws ih =>
    rw [List.forall_mem_cons] at h
    rw [List.map_cons, List.cons_append, addLines_wordingLine h.1, setWording_insert, ih h.2]
    rfl

/-- The lines of a key add it with all its wordings. -/
theorem addLines_lines {e : Text × Table Text} (hkey : IsName e.1)
    (hlocale : ∀ w ∈ e.2.entries, IsName w.1) (table : Phrases) (current : Option Text)
    (rest : List Text) :
    addLines table current (lines e ++ rest) = addLines (table.insert e.1 e.2) (some e.1) rest := by
  rw [lines, List.cons_append, addLines_keyLine hkey, addLines_wordings hlocale]
  exact congrArg (fun u => addLines (table.insert e.1 u) (some e.1) rest) (Table.empty_merge e.2)

theorem addLines_flatMap {es : List (Text × Table Text)} (hkey : ∀ e ∈ es, IsName e.1)
    (hlocale : ∀ e ∈ es, ∀ w ∈ e.2.entries, IsName w.1) (table : Phrases) (current : Option Text) :
    addLines table current (es.flatMap lines) = table.insertAll es := by
  induction es generalizing table current with
  | nil => cases current <;> rfl
  | cons e es ih =>
    rw [List.forall_mem_cons] at hkey hlocale
    rw [List.flatMap_cons, addLines_lines hkey.1 hlocale.1, ih hkey.2 hlocale.2]
    rfl

/-! ## A table as a text -/

/-- The lines of a table hold no line feed and end in no carriage return. -/
theorem IsWritable.line {table : Phrases} (h : table.IsWritable) {l : Text}
    (hl : l ∈ table.entries.flatMap lines) : '\n' ∉ l ∧ Text.dropReturns l = l := by
  obtain ⟨e, he, hl⟩ := List.mem_flatMap.1 hl
  rcases List.mem_cons.1 hl with rfl | hl
  · exact Text.line_of_visible (h.key e he).feed (List.any_eq_false.1 rfl) (List.cons_ne_nil _ _)
  · obtain ⟨w, hw, rfl⟩ := List.mem_map.1 hl
    have hfeed : '\n' ∉ quoted w.2 := by
      rw [quoted, List.mem_cons, List.mem_append, not_or, not_or]
      exact ⟨by decide, h.feed e he w hw, by decide⟩
    exact Text.line_pairLine (h.locale e he w hw).toIsKey (trimmed_quoted w.2) hfeed

/-- A line feed at the end of a text says nothing. -/
theorem addLines_concat_nil (table : Phrases) (current : Option Text) (ls : List Text) :
    addLines table current (ls ++ [[]]) = addLines table current ls := by
  induction ls generalizing table current with
  | nil => cases current <;> rfl
  | cons l ls ih =>
    rw [List.cons_append]
    cases current with
    | none =>
      rw [addLines, addLines]
      simp only [ih]
    | some k =>
      rw [addLines, addLines]
      simp only [ih]

/-- **A table of phrases is read back as it was**, with its keys and locales in their order, and with a
line feed at its end or without. -/
theorem parse_render_phrases (table : Phrases) (h : table.IsWritable) :
    parse (render table) = table ∧ parse (render table ++ ['\n']) = table := by
  have hlines : addLines .empty none (table.entries.flatMap lines) = table :=
    (addLines_flatMap h.key h.locale _ _).trans (Table.empty_merge table)
  have hread : parse (render table) = table := by
    rw [parse, render, Text.map_dropReturns_lines_unlines fun l hl => h.line hl]
    split_ifs with hnil
    · rw [hnil] at hlines
      exact (addLines_concat_nil .empty none []).trans hlines
    · exact hlines
  refine ⟨hread, ?_⟩
  rw [parse, Text.lines_append, List.map_append]
  exact (addLines_concat_nil _ _ _).trans hread

/-- Phrases with quotes, colons, hashes and blanks, a wording in quotes, an empty one, an empty locale,
and a key without wordings. -/
def greetings : Phrases :=
  ⟨[("hello there".toList,
      ⟨[("fr".toList, "  # \"Salut\": \\".toList), ("en-GB".toList, "'Hi'".toList), ([], [])], by decide⟩),
    ("later".toList, .empty), ([], ⟨[("de #2".toList, "\"\t\r".toList)], by decide⟩)], by decide⟩

theorem parse_render_phrases_greetings :
    greetings.IsWritable ∧ parse (render greetings) = greetings ∧
      parse (render greetings ++ ['\n']) = greetings := by
  have hgreetings : greetings.IsWritable := ⟨by decide, by decide, by decide⟩
  exact ⟨hgreetings, parse_render_phrases greetings hgreetings⟩

end Phrases

end ComponentLang
