import ComponentLang.Text.Basic

/-!
# Brackets and quotes

A separator counts only at the top level of a text: outside round, square and curly brackets and
outside quoted strings. A closing bracket with no partner is passed over.

* `Nesting` : where a scan from left to right stands;
* `Nesting.next` : one character further;
* `Nesting.atTop` : a character read at the top level that is itself no quote and no bracket;
* `cut?`, `cutLast?` : the parts before and after the first or last occurrence of a separator;
* `split` : all the parts.
-/

namespace ComponentLang

/-- The marks that open and close a string. -/
def isQuoteMark (c : Char) : Bool := c = '\x22' || c = '\x27' || c = '\x60'

/-- The brackets that open. -/
def isOpener (c : Char) : Bool := c = '(' || c = '[' || c = '\x7b'

/-- The brackets that close. -/
def isCloser (c : Char) : Bool := c = ')' || c = ']' || c = '\x7d'

/-- Where a scan stands: under `depth` open brackets, and outside strings, inside one that `mark`
opened, or there right after a backslash. -/
inductive Nesting where
  | plain (depth : Nat)
  | quoted (depth : Nat) (mark : Char)
  | escaped (depth : Nat) (mark : Char)
deriving DecidableEq, Repr

namespace Nesting

/-- At the top level. -/
def top : Nesting := .plain 0

/-- Where the scan stands after the character. -/
def next : Nesting → Char → Nesting
  | .plain d, c =>
    if isQuoteMark c then .quoted d c
    else if isOpener c then .plain (d + 1)
    else if isCloser c then .plain (d - 1)
    else .plain d
  | .quoted d q, c =>
    if c = '\\' then .escaped d q else if c = q then .plain d else .quoted d q
  | .escaped d q, _ => .quoted d q

/-- The character stands at the top level and could begin a separator. -/
def atTop : Nesting → Char → Bool
  | .plain 0, c => !(isQuoteMark c || isOpener c || isCloser c)
  | _, _ => false

/-- Where the scan stands after a whole text. -/
def scan (s : Nesting) (t : Text) : Nesting := t.foldl next s

/-- The separator begins here, at the top level. -/
def meets (s : Nesting) (sep : Text) : Text → Bool
  | [] => false
  | c :: r => s.atTop c && Text.startsWith sep (c :: r)

/-- The parts before and after the first top-level `sep`, for a scan that stands at `s`. -/
def cutFrom? (sep : Text) : Nesting → Text → Option (Text × Text)
  | _, [] => none
  | s, c :: r =>
    if s.meets sep (c :: r) then some ([], (c :: r).drop sep.length)
    else (cutFrom? sep (s.next c) r).map fun (a, b) => (c :: a, b)

/-- The parts before and after the last top-level `sep`, for a scan that stands at `s`. -/
def cutLastFrom? (sep : Text) : Nesting → Text → Option (Text × Text)
  | _, [] => none
  | s, c :: r =>
    match cutLastFrom? sep (s.next c) r with
    | some (a, b) => some (c :: a, b)
    | none => if s.meets sep (c :: r) then some ([], (c :: r).drop sep.length) else none

/-- The parts between the top-level occurrences of `sep`, for a scan that stands at `s` with
`skip` characters of an occurrence still ahead. Occurrences do not overlap. An empty separator
divides the text before each top-level character. -/
def splitFrom (sep : Text) : Nesting → Nat → Text → List Text
  | _, _, [] => [[]]
  | s, skip + 1, c :: r => splitFrom sep (s.next c) skip r
  | s, 0, c :: r =>
    if s.meets sep (c :: r) then
      match sep with
      | [] => [] :: Text.grow c (splitFrom sep (s.next c) 0 r)
      | _ :: rest => [] :: splitFrom sep (s.next c) rest.length r
    else Text.grow c (splitFrom sep (s.next c) 0 r)

end Nesting

namespace Text

/-- The parts before and after the first top-level occurrence of `sep`. -/
def cut? (sep t : Text) : Option (Text × Text) := Nesting.cutFrom? sep .top t

/-- The parts before and after the last top-level occurrence of `sep`. -/
def cutLast? (sep t : Text) : Option (Text × Text) := Nesting.cutLastFrom? sep .top t

/-- The parts between the top-level occurrences of `sep`, as they stand. -/
def split (sep t : Text) : List Text := Nesting.splitFrom sep .top 0 t

/-- The parts before and after the first top-level colon. -/
def cutColon? (t : Text) : Option (Text × Text) := cut? [':'] t

end Text

end ComponentLang
