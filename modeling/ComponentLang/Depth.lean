import ComponentLang.Notice
import ComponentLang.Token.Basic

/-!
# Depths

The depth of a line is the number of indentations open at it. A line that goes back to a width
between two open ones closes the wider ones and stays under the narrower.

* `Depth.settle` : the open widths at a line, innermost first; the margin is not among them;
* `Depth.assign` : the tokens with their depths;
* `Depth.notices` : the lines that go back to a width at which nothing is open;
* `Depth.canonical` : the indentation redone from the depth.
-/

namespace ComponentLang.Depth

/-- The widths open at a line of width `w`, if `stack` is open before it. -/
def settle : List Int → Int → List Int
  | [], w => if 0 < w then [w] else []
  | top :: rest, w => if top < w then w :: top :: rest else (top :: rest).dropWhile (w < ·)

/-- The innermost open width, the margin if nothing is open. -/
def nearest (stack : List Int) : Int := stack.headD 0

/-- Assigns the depths of tokens before which `stack` is open. -/
def assignFrom (stack : List Int) : List Token → List Token
  | [] => []
  | t :: ts =>
    { t with depth := (settle stack t.width).length } :: assignFrom (settle stack t.width) ts

/-- Assigns the depths of tokens. -/
def assign (ts : List Token) : List Token := assignFrom [] ts

/-- The notice on a token that goes back to a width at which nothing is open. -/
def notice? (stack : List Int) (t : Token) : Option Notice :=
  if t.width < nearest stack && nearest (settle stack t.width) ≠ t.width then
    some (.looseDedent t.line t.width (nearest (settle stack t.width)))
  else none

/-- The notices on tokens before which `stack` is open. -/
def noticesFrom (stack : List Int) : List Token → List Notice
  | [] => []
  | t :: ts => (notice? stack t).toList ++ noticesFrom (settle stack t.width) ts

/-- The notices on tokens. -/
def notices (ts : List Token) : List Notice := noticesFrom [] ts

/-- Indents each token by `unit` blanks for each block around it. -/
def canonical (unit : Int) (ts : List Token) : List Token :=
  ts.map fun t => { t with width := t.depth * unit }

/-- No token stands left of the margin. -/
def withinMargin (ts : List Token) : Bool := ts.all (0 ≤ ·.width)

end ComponentLang.Depth
