import ComponentLang.Text.Blank
import ComponentLang.Text.CaseFold
import ComponentLang.Text.Word

/-!
# Labelled companion texts

Queries and endpoints are listed in texts of their own, each after a line with its label.

* `labelAt?`, `label?` : the label marker at the start of a text, and the first one in it;
* `splitPair?` : a key and a value, divided by the first colon.
-/

namespace ComponentLang

/-- The name in the label marker that the text begins with: two dashes, the word `label` in any
case, a colon, and the name. -/
def labelAt? (t : Text) : Option Text :=
  ((Text.after? "--".toList t).bind fun r =>
    Text.afterCaseless? "label:".toList (Text.trimStart r)).bind fun r =>
      Text.nonempty? ((Text.trimStart r).takeWhile Text.isWord)

/-- The name in the first label marker of a line. -/
def label? : Text → Option Text
  | [] => none
  | c :: r => (labelAt? (c :: r)).or (label? r)

/-- The trimmed parts before and after the first colon. -/
def splitPair? (t : Text) : Option (Text × Text) :=
  (Text.splitFirst? ':' t).map fun (key, value) => (Text.trim key, Text.trim value)

end ComponentLang
