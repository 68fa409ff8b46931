import ComponentLang.Label
import ComponentLang.Table

/-!
# Endpoints

A text of endpoints gives each its label, a line with method and path, and sections of headers,
query parameters, body and mock answer, whose lines are indented.

* `Endpoint` : a labelled call;
* `Endpoint.Section` : what may be given in sections;
* `methodLine?` : a line with method and path;
* `Endpoint.parse` : the endpoints of a text.
-/

namespace ComponentLang

/-- A labelled call. -/
structure Endpoint where
  label : Text
  method : Text
  path : Text
  headers : Table Text
  query : Table Text
  body : Option Text
  mock : Option Text
deriving DecidableEq

namespace Endpoint

/-- What may be given in a section. -/
inductive Section where
  | headers
  | query
  | body
  | mock
deriving DecidableEq, Repr

/-- The name of the section. -/
def Section.label : Section → Text
  | .headers => "headers".toList
  | .query => "query".toList
  | .body => "body".toList
  | .mock => "mock".toList

/-- The section that a trimmed line opens: its name and a final colon. -/
def section? (t : Text) : Option Section :=
  if Text.endsWith ':' t then
    [.headers, .query, .body, .mock].find? fun s => s.label = Text.trim t.dropLast
  else none

/-- The methods of a call. -/
def methods : List Text := [
  "GET".toList, "POST".toList, "PUT".toList, "DELETE".toList, "PATCH".toList, "HEAD".toList,
  "OPTIONS".toList]

/-- The method at the start of a trimmed line, in capitals, and the path after it. -/
def methodLine? (t : Text) : Option (Text × Text) :=
  methods.findSome? fun name =>
    ((Text.afterCaseless? name t).bind Text.afterBlanks?).bind fun path =>
      (Text.nonempty? (Text.trim path)).map fun path =>
        (Text.toLatinUpper (t.take name.length), path)

/-- An endpoint of which the lines so far are known. -/
structure Draft where
  label : Text
  method : Text
  path : Text
  current : Option Section
  headers : Table Text
  query : Table Text
  body : List Text
  mock : List Text

/-- The draft of an endpoint that has only its label. -/
def Draft.start (label : Text) : Draft :=
  ⟨label, "GET".toList, ['/'], none, .empty, .empty, [], []⟩

/-- Adds an indented line to the section that is open; the line is given trimmed. -/
def Draft.addIndented (d : Draft) (t : Text) : Draft :=
  match d.current with
  | none => d
  | some .mock => { d with mock := d.mock ++ [t] }
  | some .body => { d with body := d.body ++ [t] }
  | some .headers =>
    match splitPair? t with
    | none => d
    | some (key, value) => { d with headers := d.headers.insert key value }
  | some .query =>
    match splitPair? t with
    | none => d
    | some (key, value) => { d with query := d.query.insert key value }

/-- Adds a line that is not blank and has no label. -/
def Draft.add (d : Draft) (line : Text) : Draft :=
  match section? (Text.trim line) with
  | some s => { d with current := some s }
  | none =>
    if Text.startsBlank line then d.addIndented (Text.trim line)
    else
      match methodLine? (Text.trim line) with
      | some (method, path) => { d with method := method, path := path, current := none }
      | none => d

/-- The endpoint of a draft. -/
def Draft.finish (d : Draft) : Endpoint :=
  { label := d.label, method := d.method, path := d.path, headers := d.headers, query := d.query
    body := Text.nonempty? (Text.unlines d.body), mock := Text.nonempty? (Text.unlines d.mock) }

/-- The endpoints in lines, the first of which go on with a draft. -/
def parseLines : Option Draft → List Text → List Endpoint
  | d, [] => (d.map Draft.finish).toList
  | d, line :: rest =>
    match label? line with
    | some label => (d.map Draft.finish).toList ++ parseLines (some (.start label)) rest
    | none =>
      if Text.trim line = [] then parseLines d rest else parseLines (d.map (·.add line)) rest

/-- The endpoints of a text. -/
def parse (t : Text) : List Endpoint :=
  parseLines none ((Text.lines t).map Text.dropReturns)

end Endpoint

end ComponentLang
