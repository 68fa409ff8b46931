import ComponentLang.Text.Word

/-!
# Test personas

* `Persona` : who a test speaks for;
* `Persona.label`, `Persona.ofTag?` : its name, and the persona whose tag a line begins with.
-/

namespace ComponentLang

/-- Who a test speaks for. -/
inductive Persona where
  | logic
  | ui
  | integration
deriving DecidableEq, Repr, Inhabited

namespace Persona

/-- The name of the persona. -/
def label : Persona → Text
  | .logic => "logic".toList
  | .ui => "ui".toList
  | .integration => "integration".toList

/-- The persona whose tag, an at sign and its name, the text begins with. -/
def ofTag? (t : Text) : Option Persona :=
  [.logic, .ui, .integration].find? fun p => (Text.afterWord? ('@' :: p.label) t).isSome

end Persona

end ComponentLang
