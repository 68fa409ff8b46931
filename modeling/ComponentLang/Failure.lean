import ComponentLang.Report

/-!
# Failures

* `Location`, `Location.render` : a place in a file, with the line that stands there;
* `Failure`, `Failure.render` : a message, where it applies, and the reports behind it;
* `Failure.ofReports` : the failure of a strict compilation, at the line of its first report;
* `Failure.ofTexts` : the same for reports from outside.
-/

namespace ComponentLang

/-- A place in a file. A line or column of zero is not known. -/
structure Location where
  file : Text
  line : Int
  column : Int
  snippet : Option Text
deriving DecidableEq, Repr

namespace Location

/-- The file, and as much of the line and column as is known. -/
def address (l : Location) : Text :=
  if l.line = 0 then l.file
  else if l.column = 0 then l.file ++ ':' :: Text.ofInt l.line
  else l.file ++ ':' :: Text.ofInt l.line ++ ':' :: Text.ofInt l.column

/-- The address, and under it the line that stands there. -/
def render (l : Location) : Text :=
  match l.snippet.bind Text.nonempty? with
  | none => l.address
  | some snippet =>
    l.address ++ '\n' :: Text.padded 4 ' ' (Text.ofInt l.line) ++ " | ".toList ++ snippet

end Location

/-- A message, where it applies, and the reports behind it. -/
structure Failure where
  message : Text
  location : Option Location
  reports : List Text
deriving DecidableEq, Repr

namespace Failure

/-- The location, the message, and the reports, each on lines of its own. -/
def render (f : Failure) : Text :=
  let place := (f.location.map fun l => l.render ++ ['\n']).getD []
  place ++ f.message ++ f.reports.flatMap fun r => "\n  ".toList ++ r

/-- The line of that number, counted from one. -/
def sourceLine? (source : Text) (n : Nat) : Option Text :=
  if n = 0 then none else (Text.lines source)[n - 1]?

/-- How many reports there are, in words. -/
def countMessage (n : Nat) : Text :=
  "Compilation failed with ".toList ++ Text.ofNat n ++
    (if n = 1 then " diagnostic".toList else " diagnostics".toList)

/-- The failure for these reports, at the line that the first of them names. -/
def ofReports (reports : List Text) (file : Text) (source : Option Text) : Failure :=
  let line := reports.head?.bind lineOfReport?
  let snippet := line.bind fun n => source.bind fun s => sourceLine? s n
  let number := line.getD 0
  { message := countMessage reports.length
    location := some ⟨file, number, if number = 0 then 0 else 1, snippet⟩
    reports := reports }

/-- The failure for reports from outside, of which the first must name a line that can be read, or
none. -/
def ofTexts (reports : List Text) (file : Text) (source : Option Text) :
    Except Text.NumberError Failure :=
  match reports with
  | [] => .ok (ofReports [] file source)
  | first :: _ => (readLine first).map fun _ => ofReports reports file source

end Failure

end ComponentLang
