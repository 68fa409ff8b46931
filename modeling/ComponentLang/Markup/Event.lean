import ComponentLang.Table
import ComponentLang.Text.Blank
import ComponentLang.Text.Word

/-!
# Event bindings

An arrow binds an event of an element to a handler.

* `handlerMark`, `handlerCall?` : the mark before the value of an attribute that holds a handler;
* `handlersOf` : the handlers among attributes;
* `eventCall?` : a binding of the form `name(handler)`;
* `parseEvent` : the attribute that a binding amounts to.
-/

namespace ComponentLang

/-- Stands before a handler in the value of an attribute. -/
def handlerMark : Text := "__VIAND_CALL__".toList

/-- The handler in the value of an attribute. -/
def handlerCall? (value : Text) : Option Text := Text.after? handlerMark value

/-- The attributes that hold a handler, with the handler alone. -/
def handlersOf (attributes : Table Text) : List (Text × Text) :=
  attributes.entries.filterMap fun (key, value) => (handlerCall? value).map (key, ·)

/-- The characters of the name of an event or handler. -/
def isEventChar (c : Char) : Bool :=
  Text.isLatinLetter c || ('0' ≤ c && c ≤ '9') || c = '_' || c = '.'

/-- The name before the brackets and the text between them, if the binding ends with them and
what is between stands on one line. -/
def eventCall? (t : Text) : Option (Text × Text) :=
  match t.takeWhile isEventChar, Text.trimStart (t.dropWhile isEventChar) with
  | c :: name, '(' :: r =>
    if Text.endsWith ')' r && Text.onOneLine r.dropLast then some (c :: name, r.dropLast) else none
  | _, _ => none

/-- The text is the bare name of a handler. -/
def isHandlerName : Text → Bool
  | [] => false
  | c :: r =>
    (Text.isNameStart c || c = '$') && r.all fun d => Text.isWord d || d = '.' || d = '$'

/-- The attribute that binds a click. -/
def clickKey : Text := "onclick".toList

/-- The attribute that binds the event `name`; points divide its modifiers. -/
def eventKey (name : Text) : Text :=
  "on".toList ++ name.map fun c => if c = '.' then '|' else c

/-- The key and value of the attribute that a binding amounts to. Brackets with nothing between
them, and a bare name, call a handler on a click. -/
def parseEvent (t : Text) : Text × Text :=
  match eventCall? (Text.trim t) with
  | some (name, inside) =>
    match Text.trim inside with
    | [] => (clickKey, handlerMark ++ name ++ "()".toList)
    | handler => (eventKey name, handlerMark ++ handler)
  | none =>
    if isHandlerName (Text.trim t) then (clickKey, handlerMark ++ Text.trim t ++ "()".toList)
    else (clickKey, handlerMark ++ Text.trim t)

end ComponentLang
