import ComponentLang.Text.Basic

/-!
# Sets of code points

A set of code points is a list of ascending runs.

* `Run` : code points at equal distances;
* `Run.covers` : membership in a list of runs; the search stops at the first run that starts
  beyond the code point.
-/

namespace ComponentLang.Text

/-- The code points `first`, `first + step`, and so on up to `last`. -/
structure Run where
  first : Nat
  last : Nat
  step : Nat

namespace Run

/-- Some run of an ascending list holds the code point `n`. -/
def covers : List Run → Nat → Bool
  | [], _ => false
  | r :: rs, n =>
    if n < r.first then false
    else if n ≤ r.last then (n - r.first) % r.step = 0
    else covers rs n

end Run

end ComponentLang.Text
