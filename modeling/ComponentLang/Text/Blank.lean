import ComponentLang.Text.Run

/-!
# Blanks

* `blankRuns`, `isBlank` : the characters that count as white space, in every script. The
  zero-width space and the byte-order mark are not among them;
* `trimStart`, `trimEnd`, `trim` : a text without the blanks at its ends;
* `afterBlanks?` : the rest after one blank or more.
-/

namespace ComponentLang.Text

/-- The white space of all scripts. -/
def blankRuns : List Run := [
  ⟨0x9, 0xD, 1⟩, ⟨0x1C, 0x20, 1⟩, ⟨0x85, 0x85, 1⟩, ⟨0xA0, 0xA0, 1⟩, ⟨0x1680, 0x1680, 1⟩,
  ⟨0x2000, 0x200A, 1⟩, ⟨0x2028, 0x2029, 1⟩, ⟨0x202F, 0x202F, 1⟩, ⟨0x205F, 0x205F, 1⟩,
  ⟨0x3000, 0x3000, 1⟩]

/-- A character of white space. -/
def isBlank (c : Char) : Bool := Run.covers blankRuns c.toNat

/-- The text from its first visible character on. -/
def trimStart (t : Text) : Text := t.dropWhile isBlank

/-- The text up to its last visible character. -/
def trimEnd (t : Text) : Text := dropEndWhile isBlank t

/-- The text without the blanks at either end. -/
def trim (t : Text) : Text := trimEnd (trimStart t)

/-- The number of blanks at the start. -/
def indentWidth (t : Text) : Nat := (t.takeWhile isBlank).length

/-- The text starts with a blank. -/
def startsBlank : Text → Bool
  | [] => false
  | c :: _ => isBlank c

/-- What follows the blanks at the start, of which there must be one at least. -/
def afterBlanks? (t : Text) : Option Text :=
  if startsBlank t then some (trimStart t) else none

/-- What follows `word` and one blank or more. -/
def afterSpaced? (word t : Text) : Option Text := (after? word t).bind afterBlanks?

end ComponentLang.Text
