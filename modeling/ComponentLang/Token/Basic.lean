import ComponentLang.Text.Quoted
import ComponentLang.Token.Category

/-!
# Tokens

A line with code on it is one token.

* `Token` : the line's number, indentation, category and text;
* `Token.render` : a token on one line, for a reader.
-/

namespace ComponentLang

/-- One line of a component.

`width` counts the blanks before its first visible character and `depth` the blocks around it,
`text` is the trimmed code without its comment, and `raw` the whole line. -/
structure Token where
  line : Int
  width : Int
  category : Category
  text : Text
  raw : Text
  depth : Int
deriving DecidableEq, Repr

namespace Token

/-- The token on one line. -/
def render (t : Token) : Text :=
  "Token(".toList ++ t.category.label ++ ", ".toList ++ Text.quoted t.text ++
    ", line=".toList ++ Text.ofInt t.line ++ ", indent=".toList ++ Text.ofInt t.width ++
    ", depth=".toList ++ Text.ofInt t.depth ++ ")".toList

end Token

end ComponentLang
