import ComponentLang.Comment
import ComponentLang.Report
import ComponentLang.Token.Basic
import ComponentLang.Token.Rule

/-!
# From a source to its tokens

* `Content`, `readLine?` : what a line holds, apart from its number. Blank lines and lines that are
  only a comment hold nothing;
* `Lexicon` : the indentation unit, the known tags and the rules;
* `Lexicon.tokens` : the tokens of a source, in order, with their line numbers;
* `Lexicon.reports` : the tokens that are not indented by a multiple of the unit.
-/

namespace ComponentLang

/-- What a line holds: its indentation, its code, and all of it. -/
structure Content where
  width : Nat
  text : Text
  raw : Text
deriving DecidableEq, Repr

/-- What a line holds, if there is code on it. A line that begins with a hash is a comment. -/
def readLine? (line : Text) : Option Content :=
  let raw := Text.dropReturns line
  let text := Text.trim (Comment.strip raw)
  if Text.startsWith ['#'] (Text.trim raw) || text = [] then none
  else some ⟨Text.indentWidth raw, text, raw⟩

/-- The indentation unit where none is asked for. -/
def defaultUnit : Nat := 4

/-- The indentation unit in force when `u` is asked for. -/
def unitInForce (u : Int) : Nat := if 0 < u then u.toNat else defaultUnit

/-- What the reading of a source depends on. -/
structure Lexicon where
  unit : Nat := defaultUnit
  tags : List Text := builtinTags
  rules : List Rule := Rule.standard

namespace Lexicon

/-- The token on the line of number `n`. -/
def token? (lex : Lexicon) (line : Text) (n : Nat) : Option Token :=
  (readLine? line).map fun content =>
    { line := n, width := content.width, category := classify lex.rules lex.tags content.text,
      text := content.text, raw := content.raw, depth := 0 }

/-- The tokens of lines that are numbered from `n` on. -/
def tokensFrom (lex : Lexicon) (n : Nat) : List Text → List Token
  | [] => []
  | line :: rest => (lex.token? line n).toList ++ tokensFrom lex (n + 1) rest

/-- The tokens of a source. Its lines are numbered from one. -/
def tokens (lex : Lexicon) (source : Text) : List Token := lex.tokensFrom 1 (Text.lines source)

/-- The report on a token that is not indented by a multiple of the unit. -/
def report? (lex : Lexicon) (t : Token) : Option Report :=
  if t.width % lex.unit = 0 then none else some ⟨t.line, .misaligned t.width lex.unit⟩

/-- The reports on the indentation of tokens. -/
def reports (lex : Lexicon) (ts : List Token) : List Report := ts.filterMap lex.report?

end Lexicon

end ComponentLang
