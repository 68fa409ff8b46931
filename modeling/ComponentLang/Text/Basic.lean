/-!
# Texts

A text is the sequence of its code points. All widths and positions of this library count them.

* `after?` : what follows a given beginning (`after?_eq_some_iff`);
* `pieces`, `lines` : the parts between separators; `List.intercalate` puts them together again
  (`intercalate_pieces`);
* `dropEndWhile`, `dropFinal`, `dropLead` : cutting at either end.
-/

namespace ComponentLang

/-- A text, as the sequence of its code points. -/
abbrev Text := List Char

namespace Text

/-- What follows the beginning `lead`, if the text has it. -/
def after? : Text → Text → Option Text
  | [], t => some t
  | _ :: _, [] => none
  | c :: lead, d :: t => if c = d then after? lead t else none

theorem after?_eq_some_iff {lead t r : Text} : after? lead t = some r ↔ t = lead ++ r := by
  induction lead generalizing t with
  | nil => simp [after?, eq_comm]
  | cons c lead ih =>
    cases t with
    | nil => simp [after?]
    | cons d t =>
      by_cases h : c = d
      · simp [after?, h, ih]
      · simp [after?, h, Ne.symm h]

/-- The text begins with `lead`. -/
def startsWith (lead t : Text) : Bool := (after? lead t).isSome

/-- Removes the beginning `lead`, if it is there. -/
def dropLead (lead t : Text) : Text := (after? lead t).getD t

/-- Removes the longest end made of characters that satisfy `p`. -/
def dropEndWhile (p : Char → Bool) (t : Text) : Text := (t.reverse.dropWhile p).reverse

/-- The text ends in the character `c`. -/
def endsWith (c : Char) (t : Text) : Bool := t.getLast? = some c

/-- Removes one final `c`, if it is there. -/
def dropFinal (c : Char) (t : Text) : Text := if endsWith c t then t.dropLast else t

/-- Puts a character in front of the first part. -/
def grow (c : Char) : List Text → List Text
  | [] => [[c]]
  | p :: ps => (c :: p) :: ps

/-- The parts between the occurrences of `sep`: one more than there are occurrences. -/
def pieces (sep : Char) : Text → List Text
  | [] => [[]]
  | c :: r => if c = sep then [] :: pieces sep r else grow c (pieces sep r)

theorem pieces_ne_nil (sep : Char) (t : Text) : pieces sep t ≠ [] := by
  cases t with
  | nil => simp [pieces]
  | cons c r =>
    rw [pieces]
    split
    · simp
    · cases pieces sep r <;> simp [grow]

theorem intercalate_pieces (sep : Char) (t : Text) :
    List.intercalate [sep] (pieces sep t) = t := by
  induction t with
  | nil => rfl
  | cons c r ih =>
    rw [pieces]
    cases h : pieces sep r with
    | nil => exact absurd h (pieces_ne_nil sep r)
    | cons p ps =>
      rw [h] at ih
      split
      · next hc => rw [← ih, hc]; simp [List.intercalate, List.intersperse]
      · rw [← ih]
        cases ps <;> simp [grow, List.intercalate, List.intersperse]

/-- The lines of a text. Only the line feed ends a line. -/
def lines (t : Text) : List Text := pieces '\n' t

/-- Lines put together with line feeds between them. -/
def unlines (ls : List Text) : Text := List.intercalate ['\n'] ls

/-- The text without the carriage returns at its end. -/
def dropReturns (t : Text) : Text := dropEndWhile (· = '\r') t

/-- No line feed occurs. -/
def onOneLine (t : Text) : Bool := t.all (· ≠ '\n')

/-- The parts before and after the first `c`. -/
def splitFirst? (c : Char) : Text → Option (Text × Text)
  | [] => none
  | d :: r => if d = c then some ([], r) else (splitFirst? c r).map fun (a, b) => (d :: a, b)

/-- The parts before and after the last `c`. -/
def splitLast? (c : Char) : Text → Option (Text × Text)
  | [] => none
  | d :: r =>
    match splitLast? c r with
    | some (a, b) => some (d :: a, b)
    | none => if d = c then some ([], r) else none

/-- The text itself, unless it is empty. -/
def nonempty? (t : Text) : Option Text := if t = [] then none else some t

end Text

end ComponentLang
