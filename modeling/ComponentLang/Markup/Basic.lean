import ComponentLang.Markup.Attributes
import ComponentLang.Markup.Event
import ComponentLang.Markup.Inline

/-!
# Markup lines

A markup line holds a tag with classes and a reference, attributes in round brackets, an event
binding after an arrow, and content after a colon, or it declares a slot.

* `Element` : the parts of an element's line;
* `Markup` : an element or a slot;
* `Markup.parse` : reading a line, which always succeeds.
-/

namespace ComponentLang

/-- The parts of an element's line. `opensBlock` says that the line ends in a colon, with nothing
after it. -/
structure Element where
  tag : Text
  attributes : Table Text
  ref : Option Text
  inline : Option Text
  opensBlock : Bool
deriving DecidableEq

/-- What a markup line says. -/
inductive Markup where
  | slot (name : Text) (inline : Option Text)
  | element (e : Element)
deriving DecidableEq

/-- The name of a slot that gives none. -/
def defaultSlot : Text := "children".toList

/-- The name of the slot that a header declares. -/
def slotName? (header : Text) : Option Text :=
  (Text.afterWord? "slot".toList header).map fun rest =>
    (Text.nonempty? ((Text.trimStart rest).takeWhile Text.isWord)).getD defaultSlot

/-- What stands before the first opening round bracket, and between it and the last closing one. -/
def bracketed? (t : Text) : Option (Text × Text) :=
  (Text.splitFirst? '(' t).bind fun (before, rest) =>
    (Text.splitLast? ')' rest).map fun (inside, _) => (before, inside)

/-- One part of a dotted tag: what stands before its hash, trimmed. -/
def partName (part : Text) : Text :=
  Text.trim (part.takeWhile (· ≠ '#'))

/-- The reference that a part of a dotted tag gives after its hash. -/
def partRef? (part : Text) : Option Text :=
  (Text.splitFirst? '#' part).bind fun (_, ref) => Text.nonempty? (Text.trim ref)

/-- The name of a tag; one that is left out is `div`. -/
def tagName (parts : List Text) : Text :=
  (parts.head?.bind Text.nonempty?).getD "div".toList

/-- The classes in a dotted tag, divided by spaces. -/
def classNames (parts : List Text) : Text :=
  List.intercalate [' '] ((parts.drop 1).filter (· ≠ []))

/-- Sets the attribute `class`, if there are classes. -/
def addClasses (attributes : Table Text) (classes : Text) : Table Text :=
  if classes = [] then attributes else attributes.insert "class".toList classes

/-- Sets the attribute of an event binding, if there is one. -/
def addEvent (attributes : Table Text) (binding : Text) : Table Text :=
  if binding = [] then attributes
  else attributes.insert (parseEvent binding).1 (parseEvent binding).2

/-- The tag side of a header and its event binding, divided by the last top-level arrow. -/
def splitArrow (header : Text) : Text × Text :=
  match Text.cutLast? "->".toList header with
  | none => (header, [])
  | some (before, after) => (Text.trim before, Text.trim after)

/-- The tag and the attributes on the tag side. -/
def splitAttributes (side : Text) : Text × Table Text :=
  match bracketed? side with
  | none => (side, .empty)
  | some (before, inside) => (Text.trim before, parseAttributes inside)

/-- The element that a header describes. -/
def parseElement (header : Text) (inline : Option Text) (opensBlock : Bool) : Element :=
  let sides := splitArrow header
  let tagSide := splitAttributes sides.1
  let parts := Text.pieces '.' tagSide.1
  let names := parts.map partName
  { tag := tagName names
    attributes := addEvent (addClasses tagSide.2 (classNames names)) sides.2
    ref := (parts.filterMap partRef?).getLast?
    inline := inline
    opensBlock := opensBlock }

/-- What a markup line says. -/
def Markup.parse (line : Text) : Markup :=
  let t := Text.trim line
  let (header, inline) := splitInline t
  match slotName? header with
  | some name => .slot name inline
  | none => .element (parseElement header inline (inline.isNone && Text.endsWith ':' t))

end ComponentLang
