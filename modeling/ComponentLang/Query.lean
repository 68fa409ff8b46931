import ComponentLang.Label

/-!
# Queries

A text of queries gives each its label, a route if it is bound to one, and its statement.

* `Query` : a labelled statement;
* `route?` : the method and path on a route line;
* `Query.parse` : the queries of a text. Lines before the first label belong to none, and a label
  without a statement makes none;
* `Query.reads` : the statement changes nothing.
-/

namespace ComponentLang

/-- The method and path at which something is reached. -/
structure Route where
  method : Text
  path : Text
deriving DecidableEq, Repr

/-- A labelled statement, and the route it is bound to. -/
structure Query where
  label : Text
  statement : Text
  route : Option Route
deriving DecidableEq, Repr

/-- The route that a line binds: two dashes, the word `route` in any case, a colon, a method and
a path. -/
def route? (line : Text) : Option Route :=
  ((Text.after? "--".toList (Text.trimStart line)).bind fun r =>
    Text.afterCaseless? "route:".toList (Text.trimStart r)).bind fun r =>
      let t := Text.trimStart r
      let method := t.takeWhile Text.isCaselessLetter
      let rest := t.dropWhile Text.isCaselessLetter
      let path := (Text.trimStart rest).takeWhile (!Text.isBlank ·)
      if method ≠ [] && Text.startsBlank rest && path ≠ [] then
        some ⟨Text.toLatinUpper method, path⟩
      else none

namespace Query

/-- A query of which the lines so far are known. -/
structure Draft where
  label : Text
  route : Option Route
  lines : List Text

/-- Adds a line, which may bind a route. -/
def Draft.add (d : Draft) (line : Text) : Draft :=
  match route? line with
  | some route => { d with route := some route }
  | none => { d with lines := d.lines ++ [line] }

/-- The query of a draft, unless its statement is blank. -/
def Draft.finish? (d : Draft) : Option Query :=
  (Text.nonempty? (Text.trim (Text.unlines d.lines))).map fun statement =>
    ⟨d.label, statement, d.route⟩

/-- The query of a draft that may be missing. -/
def finish (d : Option Draft) : List Query := (d.bind Draft.finish?).toList

/-- The queries in lines, the first of which go on with a draft. -/
def parseLines : Option Draft → List Text → List Query
  | d, [] => finish d
  | d, line :: rest =>
    match label? line with
    | some label => finish d ++ parseLines (some ⟨label, none, []⟩) rest
    | none => parseLines (d.map (·.add line)) rest

/-- The queries of a text. -/
def parse (t : Text) : List Query :=
  parseLines none ((Text.lines t).map Text.dropReturns)

/-- The statement only reads: it begins with one of two words, in any case. -/
def reads (q : Query) : Bool :=
  let t := Text.toLatinUpper (Text.trimStart q.statement)
  Text.startsWith "SELECT".toList t || Text.startsWith "WITH".toList t

end Query

end ComponentLang
