import ComponentLang.Nesting
import ComponentLang.Text.Blank
import ComponentLang.Text.Word

/-!
# Inline content

A header may be followed by a colon and content on the same line.

* `splitInline` : a line as header and content;
* `unquote` : a text without the quotes around it;
* `TextMode`, `classifyText` : how a piece of content is to be taken. One quoted string loses its
  quotes and is literal, or interpolated if it mentions a variable; other content is an expression;
  a line of prose is taken like a string.
-/

namespace ComponentLang

/-- The header of a line and its content, divided by the first top-level colon. -/
def splitInline (t : Text) : Text × Option Text :=
  match Text.cutColon? t with
  | none => (Text.trim (Text.dropFinal ':' (Text.trim t)), none)
  | some (before, after) => (Text.trim before, Text.nonempty? (Text.trim after))

/-- The content after the first top-level colon, if there is any. -/
def inlineContent? (t : Text) : Option Text :=
  (Text.cutColon? t).bind fun (_, after) => Text.nonempty? (Text.trim after)

/-- The trimmed text without the matching single or double quotes around it. -/
def unquote (t : Text) : Text :=
  match Text.trim t with
  | [] => []
  | q :: r =>
    if (q = '\x22' || q = '\x27') && Text.endsWith q r then r.dropLast else q :: r

/-- No `mark` occurs but after a backslash. -/
def unbroken (mark : Char) : Text → Bool
  | [] => true
  | ['\\'] => true
  | '\\' :: _ :: r => unbroken mark r
  | c :: r => c ≠ mark && unbroken mark r

/-- The body of the one string that the text consists of. -/
def stringBody? : Text → Option Text
  | [] => none
  | q :: r =>
    if isQuoteMark q && Text.endsWith q r && unbroken q r.dropLast then some r.dropLast else none

/-- A variable is mentioned: a dollar sign before the start of a name. -/
def mentionsVariable : Text → Bool
  | [] => false
  | c :: r => (c = '$' && r.head?.any Text.isNameStart) || mentionsVariable r

/-- How a piece of text is to be taken. -/
inductive TextMode where
  | literal
  | interpolated
  | expression
deriving DecidableEq, Repr, Inhabited

/-- The name of the mode. -/
def TextMode.label : TextMode → Text
  | .literal => "literal".toList
  | .interpolated => "interpolated".toList
  | .expression => "expression".toList

/-- The mode of a text to be shown. -/
def shownMode (t : Text) : TextMode := if mentionsVariable t then .interpolated else .literal

/-- A piece of content without its quotes, and its mode. -/
def classifyText (prose : Bool) (t : Text) : Text × TextMode :=
  match stringBody? (Text.trim t) with
  | some body => (body, shownMode body)
  | none => (Text.trim t, if prose then shownMode (Text.trim t) else .expression)

end ComponentLang
