import ComponentLang.Label
import ComponentLang.Markup.Inline
import ComponentLang.Table

/-!
# Document heads

The head of a document has fields, named sections of pairs, and links. A line at the margin with a
value is a field, one without opens a section, and the indented lines after it are its pairs. The
section `link` holds the links.

* `Head` : the head;
* `Head.merge` : a second head added to a first, over which it wins;
* `Head.parse` : reading a text;
* `Head.title?`, `Head.isEmpty` : what is asked of a head.
-/

namespace ComponentLang

/-- A link of a document. -/
structure Link where
  rel : Text
  href : Text
deriving DecidableEq, Repr

/-- The head of a document. -/
structure Head where
  fields : Table Text
  sections : Table (Table Text)
  links : List Link
deriving DecidableEq

namespace Head

/-- Nothing in it. -/
def empty : Head := ⟨.empty, .empty, []⟩

/-- Adds pairs to a section, which is opened if it is new. -/
def extendSection (sections : Table (Table Text)) (name : Text) (pairs : Table Text) :
    Table (Table Text) :=
  sections.insert name (((sections.get? name).getD .empty).merge pairs)

/-- Adds `b` to `a`; where both speak, `b` wins. -/
def merge (a b : Head) : Head :=
  { fields := a.fields.merge b.fields
    sections := b.sections.entries.foldl (fun s e => extendSection s e.1 e.2) a.sections
    links := a.links ++ b.links }

/-- Adds a pair to a section; in the section `link` it is a link. -/
def addPair (h : Head) (name key value : Text) : Head :=
  if name = "link".toList then { h with links := h.links ++ [⟨key, unquote value⟩] }
  else
    { h with sections :=
        h.sections.insert name (((h.sections.get? name).getD .empty).insert key (unquote value)) }

/-- The pair on a line, unless that is blank, a comment or without a colon. -/
def linePair? (line : Text) : Option (Text × Text) :=
  if Text.startsWith ['#'] (Text.trim line) then none else splitPair? (Text.trim line)

/-- Adds lines to a head, the first of which belong to the section that is open. -/
def addLines : Head → Option Text → List Text → Head
  | h, _, [] => h
  | h, current, line :: rest =>
    match linePair? line with
    | none => addLines h current rest
    | some (key, value) =>
      if Text.startsBlank line then
        match current with
        | none => addLines h current rest
        | some name => addLines (h.addPair name key value) current rest
      else if value = [] then addLines h (some key) rest
      else addLines { h with fields := h.fields.insert key (unquote value) } none rest

/-- The head that a text gives. -/
def parse (t : Text) : Head := addLines .empty none ((Text.lines t).map Text.dropReturns)

/-- The field `title`. -/
def title? (h : Head) : Option Text := h.fields.get? "title".toList

/-- There is nothing in it. -/
def isEmpty (h : Head) : Bool := h.fields.isEmpty && h.sections.isEmpty && h.links.isEmpty

end Head

end ComponentLang
