import ComponentLang.Depth
import ComponentLang.Nesting
import ComponentLang.Token.Lexicon

/-!
# Canonical layout

A source is laid out anew: each line is indented by its depth, arrows are set off by one space on
either side, blank lines are left out, and comments are indented like the code after them.

* `Reflow.codeText`, `Reflow.commentText` : the code and the comment of a line;
* `Reflow.lines` : the lines of the new layout;
* `reflow` : the new source.
-/

namespace ComponentLang

namespace Reflow

/-- The arrow of an event binding. -/
def arrow : Text := "->".toList

/-- The code of a line, with one space on either side of each top-level arrow. -/
def codeText (text : Text) : Text :=
  Text.trim (List.intercalate " -> ".toList ((Text.split arrow text).map Text.trim))

/-- The comment after the code of a line. -/
def commentText (c : Content) : Text := Text.trim ((Text.trim c.raw).drop c.text.length)

/-- A line of code in the new layout, apart from its indentation. -/
def lineText (c : Content) : Text :=
  if commentText c = [] then codeText c.text else codeText c.text ++ ' ' :: commentText c

/-- The blanks before a line at which so many blocks are open. -/
def indent (unit : Int) (depth : Nat) : Text := List.replicate (depth * unit).toNat ' '

/-- Lays out lines before which `stack` is open and the comments `pending` still wait for the code
after them. -/
def lines (unit : Int) : List Int → List Text → List Text → List Text
  | _, pending, [] => pending
  | stack, pending, line :: rest =>
    match readLine? line with
    | none =>
      lines unit stack (pending ++ (Text.nonempty? (Text.trim line)).toList) rest
    | some c =>
      let stack := Depth.settle stack c.width
      let blanks := indent unit stack.length
      (pending ++ [lineText c]).map (blanks ++ ·) ++ lines unit stack [] rest

end Reflow

/-- The source in the new layout. -/
def reflow (unit : Int) (source : Text) : Text :=
  (Reflow.lines unit [] [] (Text.lines source)).flatMap (· ++ ['\n'])

end ComponentLang
