import ComponentLang.Report
import ComponentLang.Token.Category

/-!
# Notices

Notices tell what happened on the way to a manifest.

* `DropReason` : why a line found no place;
* `Notice` : the events worth telling, and `Notice.message` their wording.
-/

namespace ComponentLang

/-- Why a line was dropped. -/
inductive DropReason where
  | malformed (category : Category)
  | malformedFunction
  | noDependency
  | unknownPersona
  | outsideRule
  | notABranch
  | outsideBlock
  | badControl
  | loneElse
  | misplaced (category : Category)
deriving DecidableEq, Repr

/-- The reason in words. -/
def DropReason.message : DropReason → Text
  | .malformed category => "malformed ".toList ++ category.label
  | .malformedFunction => "malformed function header".toList
  | .noDependency => "watcher without dependency".toList
  | .unknownPersona => "unknown test persona".toList
  | .outsideRule => "declaration outside a style rule".toList
  | .notABranch => "expected case or default inside match".toList
  | .outsideBlock => "text outside any block".toList
  | .badControl => "misplaced or malformed control flow".toList
  | .loneElse => "else without a preceding if".toList
  | .misplaced category => category.label ++ " has no place here".toList

/-- An event on the way to a manifest. -/
inductive Notice where
  /-- A line goes back to a width at which no block is open. -/
  | looseDedent (line width nearest : Int)
  /-- A line found no place. -/
  | dropped (line : Int) (text : Text) (reason : DropReason)
  /-- A manifest is finished. -/
  | built (name : Text) (states functions roots : Nat)
  /-- A source is compiled. -/
  | compiled (file name : Text) (tokens reports : Nat)
  /-- A report on a source. -/
  | reported (file report : Text)
deriving DecidableEq, Repr

/-- The event in words. -/
def Notice.message : Notice → Text
  | .looseDedent line width nearest =>
    atLine line ("dedent to width ".toList ++ Text.ofInt width ++
      " matches no open block (nearest ".toList ++ Text.ofInt nearest ++ ")".toList)
  | .dropped line text reason =>
    atLine line ("dropped ".toList ++ text ++ " (".toList ++ reason.message ++ ")".toList)
  | .built name states functions roots =>
    "Built manifest ".toList ++ name ++ ": ".toList ++ Text.ofNat states ++ " state, ".toList ++
      Text.ofNat functions ++ " functions, ".toList ++ Text.ofNat roots ++
      " root view nodes".toList
  | .compiled file name tokens reports =>
    "Compiled ".toList ++ file ++ " (".toList ++ name ++ "): ".toList ++ Text.ofNat tokens ++
      " tokens, ".toList ++ Text.ofNat reports ++ " reports".toList
  | .reported file report => file ++ ": ".toList ++ report

end ComponentLang
