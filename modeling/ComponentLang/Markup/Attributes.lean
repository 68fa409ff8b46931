import ComponentLang.Nesting
import ComponentLang.Table
import ComponentLang.Text.Blank

/-!
# Attributes

The attributes of an element are pairs between round brackets, divided by commas.

* `groupKeys` : the keys that take the part up to the next colon into the key;
* `readAttribute?` : one pair; a bare key is set to `true`;
* `parseAttributes` : the whole list.
-/

namespace ComponentLang

/-- The keys that are completed by the part up to the next colon. -/
def groupKeys : List Text := ["bind".toList, "class".toList, "style".toList]

/-- Moves the part of the value before its first top-level colon to the key, if the key wants
completion and there is such a part. -/
def completeKey (key value : Text) : Text × Text :=
  match if groupKeys.contains key then Text.cutColon? value else none with
  | none => (key, value)
  | some (before, after) => (key ++ ':' :: Text.trim before, Text.trim after)

/-- The key and value of one part of an attribute list; a blank part has none. -/
def readAttribute? (part : Text) : Option (Text × Text) :=
  match Text.trim part with
  | [] => none
  | pair =>
    match Text.cutColon? pair with
    | none => some (pair, "true".toList)
    | some (key, value) => some (completeKey (Text.trim key) (Text.trim value))

/-- The attributes in a text, of equal keys the last. -/
def parseAttributes (t : Text) : Table Text :=
  Table.empty.insertAll ((Text.split [','] t).filterMap readAttribute?)

end ComponentLang
