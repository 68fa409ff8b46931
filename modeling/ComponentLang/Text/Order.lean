import ComponentLang.Text.Basic

/-!
# The order of texts

* `precedes` : texts in the order of their code points;
* `sortedOnce` : a list in that order, each text once.
-/

namespace ComponentLang.Text

/-- The first text does not come after the second. -/
def precedes : Text → Text → Bool
  | [], _ => true
  | _ :: _, [] => false
  | c :: s, d :: t => c < d || (c = d && precedes s t)

/-- The texts in ascending order, each once. -/
def sortedOnce (ts : List Text) : List Text := ts.eraseDups.mergeSort precedes

end ComponentLang.Text
