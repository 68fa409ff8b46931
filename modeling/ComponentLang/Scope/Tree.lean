import ComponentLang.Header
import ComponentLang.Notice
import ComponentLang.Scope.Basic

/-!
# Lines of a view

* `Scope.openNode` : a node with a block of its own;
* `Scope.controlLine` : loops, conditions, choices and alternates;
* `Scope.branchLine` : the branches of a choice;
* `Scope.markupLine` : elements, fragments and slots;
* `Scope.viewLine` : any line of a view. Lines without markup are prose, and stand in a block.
-/

namespace ComponentLang

/-- The content after the colon of a header, as a body of one text. -/
def inlineNodes (inline : Option Text) (line : Int) : List ViewNode :=
  (inline.map fun t => .text (classifyText false t).1 (classifyText false t).2 line).toList

namespace Scope

/-- Adds a node and opens a block for its body, which begins with `nodes`. -/
def openNode (s : Scope) (t : Token) (node : ViewNode) (nodes : List ViewNode) : Scope :=
  Scope.push (s.append (node.setChildren nodes)) t (.view (.node s.children.length) nodes)

/-- Adds a choice and opens a block for its branches. -/
def openChoice (s : Scope) (t : Token) (subject : Text) : Scope :=
  Scope.push (s.append (.choice subject [] none t.line)) t (.choice s.children.length [] none)

/-- Opens one more branch of the condition right before. -/
def openAlternate (s : Scope) (t : Token) (condition : Option Text) (nodes : List ViewNode) :
    Except DropReason Scope :=
  if s.children.getLast?.any ViewNode.isCond then
    .ok (s.push t (.view (.alternate (s.children.length - 1) condition) nodes))
  else .error .loneElse

/-- Takes a line of control flow in a view. -/
def controlLine (s : Scope) (t : Token) : Except DropReason Scope :=
  let nodes := inlineNodes (splitInline t.text).2 t.line
  match ViewHeader.parse? (splitInline t.text).1 with
  | some (.each list item) => .ok (s.openNode t (.each list item [] t.line) nodes)
  | some (.cond condition) =>
    .ok (s.openNode t (.cond (.last ⟨some condition, [], t.line⟩)) nodes)
  | some (.choice subject) => .ok (s.openChoice t subject)
  | some (.alternate condition) => s.openAlternate t condition nodes
  | none => .error .badControl

/-- Takes a line right under a choice, which has to open a branch. -/
def branchLine (s : Scope) (t : Token) : Except DropReason Scope :=
  let nodes := inlineNodes (splitInline t.text).2 t.line
  let header := if t.category = .control then CaseHeader.parse? (splitInline t.text).1 else none
  match header with
  | some (.case condition) => .ok (s.push t (.view (.branch (some condition)) nodes))
  | some .fallback => .ok (s.push t (.view (.branch none) nodes))
  | none => .error .notABranch

/-- The node of an element's line, with nothing in it. A fragment is an element of that tag with
neither attributes nor a reference. -/
def elementNode (e : Element) (line : Int) : ViewNode :=
  if e.tag = "fragment".toList && e.attributes.isEmpty && e.ref.isNone then .fragment [] line
  else .element e.tag e.attributes e.ref [] line

/-- Notes a reference. -/
def registerRef (s : Scope) (ref : Text) : Scope :=
  { s with manifest := { s.manifest with refs := Manifest.register ref s.manifest.refs } }

/-- Notes a slot. -/
def registerSlot (s : Scope) (name : Text) : Scope :=
  { s with manifest := { s.manifest with slots := Manifest.register name s.manifest.slots } }

/-- Takes a markup line. -/
def markupLine (s : Scope) (t : Token) : Scope :=
  match Markup.parse t.text with
  | .slot name _ => (s.registerSlot name).append (.slot name t.line)
  | .element e =>
    let s := (e.ref.map s.registerRef).getD s
    if e.opensBlock then s.openNode t (elementNode e t.line) []
    else s.append ((elementNode e t.line).setChildren (inlineNodes e.inline t.line))

/-- Takes a line of prose. -/
def proseLine (s : Scope) (t : Token) : Scope :=
  s.append (.text (classifyText true t.text).1 (classifyText true t.text).2 t.line)

/-- The text begins with the word `slot`. -/
def isSlotLine (t : Text) : Bool := (Text.afterWord? "slot".toList t).isSome

/-- Takes a line among the nodes of a view. -/
def nodeLine (s : Scope) (t : Token) : Except DropReason Scope :=
  if t.category = .control then s.controlLine t
  else if t.category = .element || isSlotLine t.text then .ok (s.markupLine t)
  else if 0 < t.depth then .ok (s.proseLine t)
  else .error .outsideBlock

end Scope

end ComponentLang
