import ComponentLang.Text.Decimal

/-!
# Reports

A report is a remark on one line of a source. None of them stops a compilation that is not strict.

* `Report`, `Problem` : the line and what is wrong there;
* `Report.render` : the text of a report, led by its line;
* `lineOfReport?` : the line that such a text names;
* `readLine` : the same for a text from outside, which may have more digits than are read.
-/

namespace ComponentLang

/-- What can be declared twice. -/
inductive DeclarationKind where
  | prop
  | state
  | derived
  | function
deriving DecidableEq, Repr

/-- The name of the kind in a report. -/
def DeclarationKind.label : DeclarationKind → Text
  | .prop => "prop".toList
  | .state => "state".toList
  | .derived => "derived value".toList
  | .function => "function".toList

/-- What a report is about. -/
inductive Problem where
  /-- The line is indented by `used` blanks, no multiple of `unit`. -/
  | misaligned (used unit : Int)
  /-- The name was already declared on the line `first`. -/
  | repeated (kind : DeclarationKind) (name : Text) (first : Int)
deriving DecidableEq, Repr

/-- A problem in words. -/
def Problem.message : Problem → Text
  | .misaligned used unit =>
    "Indentation Error (used ".toList ++ Text.ofInt used ++
      " spaces, must be multiple of ".toList ++ Text.ofInt unit ++ ")".toList
  | .repeated kind name first =>
    "Duplicate ".toList ++ kind.label ++ " '".toList ++ name ++
      "' (first declared on line ".toList ++ Text.ofInt first ++ ")".toList

/-- A problem and the line it stands on. -/
structure Report where
  line : Int
  problem : Problem
deriving DecidableEq, Repr

/-- A message led by the line it speaks of. -/
def atLine (line : Int) (message : Text) : Text :=
  "Line ".toList ++ Text.ofInt line ++ ": ".toList ++ message

/-- The text of a report. -/
def Report.render (r : Report) : Text := atLine r.line r.problem.message

/-- The digits by which the text of a report names its line: those between its first word and a
colon, of which there must be one at least. -/
def lineDigits? (t : Text) : Option Text :=
  match Text.after? "Line ".toList t with
  | none => none
  | some r =>
    if r.takeWhile Text.isDigit ≠ [] && (r.dropWhile Text.isDigit).head? = some ':' then
      some (r.takeWhile Text.isDigit)
    else none

/-- The line that the text of a report names. -/
def lineOfReport? (t : Text) : Option Nat := (lineDigits? t).map Text.value

/-- The line that a text from outside names, if its digits are not too many to be read. -/
def readLine (t : Text) : Except Text.NumberError (Option Nat) :=
  match lineDigits? t with
  | none => .ok none
  | some digits => (Text.read digits).map some

end ComponentLang
