import ComponentLang.Markup.Inline

/-!
# Block headers

* `functionHeader?` : the name and parameters of a function;
* `watchDependency?` : what a watcher depends on;
* `suiteName?` : the name of a test suite;
* `isLogicBlock` : a header that nests in logic;
* `ViewHeader` : the headers of control flow in a view, read by `ViewHeader.parse?`;
* `CaseHeader` : the headers inside a choice, read by `CaseHeader.parse?`.
-/

namespace ComponentLang

/-! ## Logic -/

/-- The trimmed parameters in a list, blank ones left out. -/
def parameters (t : Text) : List Text :=
  ((Text.split [','] t).map Text.trim).filter (· ≠ [])

/-- The name and parameters of a function. The list of parameters goes on to the last closing
bracket of the first line. -/
def functionHeader? (t : Text) : Option (Text × List Text) :=
  ((Text.afterSpaced? "fn".toList t).bind Text.name?).bind fun (name, rest) =>
    ((Text.after? ['('] (Text.trimStart rest)).bind fun r =>
      Text.splitLast? ')' (r.takeWhile (· ≠ '\n'))).map fun (list, _) => (name, parameters list)

/-- What stands between the opening words of a watcher and its first top-level colon. -/
def watchDependency? (t : Text) : Option Text :=
  let header := ((Text.cutColon? t).map Prod.fst).getD t
  ((Text.afterSpaced? "on".toList header).bind (Text.afterSpaced? "change".toList)).bind fun r =>
    Text.nonempty? (Text.trim r)

/-- The name of a test suite, without the quotes around it and the colon after it. -/
def suiteName? (t : Text) : Option Text :=
  (Text.afterWord? "test".toList t).bind fun r =>
    let name := Text.trimEnd (Text.dropFinal ':' (Text.trim r))
    if Text.onOneLine name then Text.nonempty? (unquote name) else none

/-- The line opens a block in logic. -/
def isLogicBlock (t : Text) : Bool :=
  (Text.afterSpaced? "if".toList t).isSome || (Text.afterWord? "else".toList t).isSome

/-! ## Views -/

/-- What follows a keyword and blanks: something, on one line. -/
def clause? (keyword t : Text) : Option Text :=
  (Text.afterSpaced? keyword t).bind fun r =>
    if Text.onOneLine r then Text.nonempty? (Text.trim r) else none

/-- The headers of control flow in a view. -/
inductive ViewHeader where
  | each (list item : Text)
  | cond (condition : Text)
  | choice (subject : Text)
  | alternate (condition : Option Text)
deriving DecidableEq, Repr

namespace ViewHeader

/-- A loop over the items of a list. The dollar signs before either name are left out. -/
def each? (t : Text) : Option ViewHeader :=
  ((Text.afterSpaced? "each".toList t).bind fun r =>
    Text.name? (Text.dropLead ['$'] r)).bind fun (item, rest) =>
      ((Text.afterBlanks? rest).bind (clause? "in".toList)).map fun list =>
        .each (Text.dropLead ['$'] list) item

/-- An alternate, with a condition or without. -/
def alternate? (t : Text) : Option ViewHeader :=
  (Text.after? "else".toList t).bind fun r =>
    if r = [] then some (.alternate none)
    else ((Text.afterBlanks? r).bind (clause? "if".toList)).map fun c => .alternate (some c)

/-- The header of control flow in a trimmed text. -/
def parse? (t : Text) : Option ViewHeader :=
  (each? t).or (((clause? "if".toList t).map .cond).or
    (((clause? "match".toList t).map .choice).or (alternate? t)))

end ViewHeader

/-- The headers inside a choice. -/
inductive CaseHeader where
  | case (condition : Text)
  | fallback
deriving DecidableEq, Repr

/-- The header of a branch in a trimmed text. -/
def CaseHeader.parse? (t : Text) : Option CaseHeader :=
  ((clause? "case".toList t).map .case).or
    (if t = "default".toList then some .fallback else none)

end ComponentLang
