import ComponentLang.Header
import ComponentLang.Notice
import ComponentLang.Scope.Basic

/-!
# Lines of declarations, logic, styles and heads

* `Manifest.declare?` : the manifest with one more declaration;
* `Scope.openFunction`, `openMount`, `openWatcher`, `openPersona` : blocks of logic;
* `Scope.logicLine`, `styleLine`, `headLine` : a line inside such a block.
-/

namespace ComponentLang

/-- The manifest with what a line declares. A line that is malformed, or of a category that
declares nothing, changes nothing. -/
def Manifest.declare? (m : Manifest) (t : Token) : Option Manifest :=
  match t.category with
  | .component => (headerName? "component".toList t.text).map fun name => { m with name := name }
  | .memory =>
    (headerName? "memory".toList t.text).map fun name =>
      { m with name := name, isSingleton := true }
  | .use => (Import.parse? t.text).map fun i => { m with imports := m.imports ++ [i] }
  | .prop => (Declaration.parseProp? t.text t.line).map fun d => { m with props := m.props ++ [d] }
  | .state =>
    (Declaration.parseState? t.text t.line).map fun d => { m with state := m.state ++ [d] }
  | .derived => (Derived.parse? t.text t.line).map fun d => { m with derived := m.derived ++ [d] }
  | _ => none

namespace Scope

/-- Records what a line declares. -/
def declare (s : Scope) (t : Token) : Except DropReason Scope :=
  match s.manifest.declare? t with
  | some m => .ok { s with manifest := m }
  | none => .error (.malformed t.category)

/-! ## Logic -/

/-- The content after the colon of a header, as a body of one line. -/
def inlineBody (t : Token) : List LogicItem :=
  ((inlineContent? t.text).map fun text => .line text t.line).toList

/-- Opens the body of a function. -/
def openFunction (s : Scope) (t : Token) : Except DropReason Scope :=
  match functionHeader? t.text with
  | none => .error .malformedFunction
  | some (name, params) =>
    let m := s.manifest
    .ok (Scope.push { s with manifest := { m with
        functions := m.functions ++ [⟨name, params, [], t.line⟩] } }
      t (.logic (.function m.functions.length) []))

/-- Opens the mount hook. -/
def openMount (s : Scope) (t : Token) : Scope :=
  let m := s.manifest
  Scope.push { s with manifest := { m with lifecycle := m.lifecycle ++ inlineBody t } } t .mount

/-- Opens the body of a watcher. -/
def openWatcher (s : Scope) (t : Token) : Except DropReason Scope :=
  match watchDependency? t.text with
  | none => .error .noDependency
  | some dependency =>
    let m := s.manifest
    .ok (Scope.push { s with manifest := { m with
        watchers := m.watchers ++ [⟨dependency, inlineBody t, t.line⟩] } }
      t (.logic (.watcher m.watchers.length) (inlineBody t)))

/-- The name of the suite that a frame opens, if it opens one. -/
def suiteOf? (frame : Frame) : Option (Option Text) :=
  match frame.block with
  | .suite name => some name
  | _ => none

/-- The name of the innermost suite. -/
def suite? (s : Scope) : Option Text := (s.frames.findSome? suiteOf?).join

/-- Opens the body of a test. -/
def openPersona (s : Scope) (t : Token) : Except DropReason Scope :=
  match Persona.ofTag? t.text with
  | none => .error .unknownPersona
  | some persona =>
    let m := s.manifest
    .ok (Scope.push { s with manifest := { m with
        tests := m.tests ++ [⟨persona, s.suite?, [], t.line⟩] } }
      t (.logic (.persona m.tests.length) []))

/-- Adds a line to a body of logic. Conditional headers open a block; of all other lines but
assertions the text is kept, whatever their category. -/
def logicLine (s : Scope) (t : Token) : Scope :=
  if t.category = .control && isLogicBlock t.text then
    Scope.push (s.appendItem (.block t.text [] t.line)) t (.logic (.nested s.body.length) [])
  else if t.category = .assertion then
    s.appendItem (.assertion (Text.trim (Text.dropLead "must".toList t.text)) t.line)
  else s.appendItem (.line t.text t.line)

/-! ## Styles -/

/-- Opens a style rule. -/
def openRule (s : Scope) (t : Token) : Scope :=
  let m := s.manifest
  Scope.push { s with manifest := { m with
      styleRules := m.styleRules ++ [⟨Text.trim t.text.dropLast, [], t.line⟩] } }
    t (.rule m.styleRules.length [])

/-- Adds a line to a style: a selector if it ends in a colon, else a declaration of the rule that
is open. -/
def styleLine (s : Scope) (t : Token) : Except DropReason Scope :=
  if Text.endsWith ':' t.text then .ok (s.openRule t)
  else
    match s.frames with
    | ⟨depth, line, .rule slot declarations⟩ :: rest =>
      .ok { s with frames := ⟨depth, line, .rule slot (declarations ++ [t.text])⟩ :: rest }
    | _ => .error .outsideRule

/-! ## Heads -/

/-- The blanks that set off one level of a head block. -/
def headIndent : Nat := 4

/-- How many blanks set off a line in a head block that was opened at the given depth. -/
def headBlanks (depth : Int) (t : Token) : Nat := headIndent * (t.depth - depth - 1).toNat

/-- Adds a line to a head block, indented by its depth inside the block. -/
def headLine (s : Scope) (t : Token) : Scope :=
  match s.frames with
  | ⟨depth, line, .head lines⟩ :: rest =>
    let text := List.replicate (headBlanks depth t) ' ' ++ t.text
    { s with frames := ⟨depth, line, .head (lines ++ [text])⟩ :: rest }
  | _ => s

end Scope

end ComponentLang
