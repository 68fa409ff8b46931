import ComponentLang.Markup.Inline
import ComponentLang.Table
import ComponentLang.Text.Order

/-!
# Phrases

A table of phrases gives each key its wording in several locales. A line at the margin names a key,
and the indented lines after it give a locale and the wording.

* `Phrases` : the table;
* `Phrases.parse` : reading a text;
* `Phrases.locales` : the locales in use, in ascending order, each once.
-/

namespace ComponentLang

/-- The wordings of each key, by locale. -/
abbrev Phrases := Table (Table Text)

namespace Phrases

/-- What stands before the first colon and after it. -/
def splitEntry (t : Text) : Text × Text :=
  match Text.splitFirst? ':' t with
  | none => (t, [])
  | some (key, value) => (Text.trim key, value)

/-- A line that says something: it is not blank and does not begin with a hash. -/
def speaks (t : Text) : Bool := t ≠ [] && !Text.startsWith ['#'] t

/-- Sets the wording of a key in a locale. -/
def setWording (table : Phrases) (key locale wording : Text) : Phrases :=
  table.insert key (((table.get? key).getD .empty).insert locale wording)

/-- Adds lines to a table, the first of which belong to the key that is open. A key that comes
again starts anew. -/
def addLines : Phrases → Option Text → List Text → Phrases
  | table, _, [] => table
  | table, key, line :: rest =>
    let t := Text.trim line
    if !speaks t then addLines table key rest
    else if !Text.startsBlank line then
      addLines (table.insert (splitEntry t).1 .empty) (some (splitEntry t).1) rest
    else
      match key with
      | none => addLines table key rest
      | some k => addLines (setWording table k (splitEntry t).1 (unquote (splitEntry t).2)) key rest

/-- The table that a text gives. -/
def parse (t : Text) : Phrases := addLines .empty none ((Text.lines t).map Text.dropReturns)

/-- The locales in use. -/
def locales (table : Phrases) : List Text :=
  Text.sortedOnce (table.entries.flatMap fun (_, wordings) => Entries.keys wordings.entries)

end Phrases

end ComponentLang
