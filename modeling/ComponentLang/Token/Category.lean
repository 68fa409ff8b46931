import ComponentLang.Text.Basic

/-!
# Categories of lines

* `Category` : what a line of a component is, as far as the line alone can tell;
* `Category.label`, `Category.ofLabel?` : its name in reports and back (`ofLabel?_label`).
-/

namespace ComponentLang

/-- What a line of a component is. -/
inductive Category where
  | component
  | memory
  | use
  | prop
  | state
  | derived
  | function
  | mount
  | watch
  | style
  | head
  | suite
  | persona
  | view
  | control
  | element
  | assertion
  | expression
deriving DecidableEq, Repr, Inhabited

namespace Category

/-- All the categories. -/
def all : List Category := [
  .component, .memory, .use, .prop, .state, .derived, .function, .mount, .watch, .style, .head,
  .suite, .persona, .view, .control, .element, .assertion, .expression]

/-- The name of a category. -/
def label : Category → Text
  | .component => "component-declaration".toList
  | .memory => "memory-declaration".toList
  | .use => "import-declaration".toList
  | .prop => "prop-declaration".toList
  | .state => "state-declaration".toList
  | .derived => "derived-declaration".toList
  | .function => "function-declaration".toList
  | .mount => "lifecycle-block".toList
  | .watch => "watch-block".toList
  | .style => "style-root".toList
  | .head => "head-root".toList
  | .suite => "test-root".toList
  | .persona => "test-persona".toList
  | .view => "view-root".toList
  | .control => "control-flow".toList
  | .element => "element".toList
  | .assertion => "assertion".toList
  | .expression => "expression".toList

/-- The category of a given name. -/
def ofLabel? (name : Text) : Option Category := all.find? fun c => c.label = name

theorem ofLabel?_label (c : Category) : ofLabel? c.label = some c := by
  cases c <;> decide

end Category

end ComponentLang
