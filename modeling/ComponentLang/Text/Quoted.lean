import ComponentLang.Text.Decimal
import ComponentLang.Text.Printable

/-!
# Quoted texts

* `quoteFor` : the apostrophe encloses a text, unless that has one and no double quote;
* `escape` : how a character is written between quotes;
* `quoted` : a text in quotes, on one line, with only printable characters.
-/

namespace ComponentLang.Text

/-- The quote that encloses `t`. -/
def quoteFor (t : Text) : Char :=
  if t.contains '\x27' && !t.contains '\x22' then '\x22' else '\x27'

/-- The lower-case hexadecimal digits of `n`, at least `width` of them. -/
def hex (width n : Nat) : Text := padded width '0' (Nat.toDigits 16 n)

/-- How `c` is written between two quotes `mark`. -/
def escape (mark c : Char) : Text :=
  if c = '\\' || c = mark then ['\\', c]
  else if c = '\n' then ['\\', 'n']
  else if c = '\r' then ['\\', 'r']
  else if c = '\t' then ['\\', 't']
  else if isPrintable c then [c]
  else if c.toNat < 0x100 then '\\' :: 'x' :: hex 2 c.toNat
  else if c.toNat < 0x10000 then '\\' :: 'u' :: hex 4 c.toNat
  else '\\' :: 'U' :: hex 8 c.toNat

/-- The text in quotes. -/
def quoted (t : Text) : Text :=
  quoteFor t :: t.flatMap (escape (quoteFor t)) ++ [quoteFor t]

end ComponentLang.Text
