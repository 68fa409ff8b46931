import ComponentLang.Manifest
import ComponentLang.Report

/-!
# Repeated declarations

A name may be declared again; the last declaration counts. Each repeat is reported.

* `repeats` : the repeats in one list of declarations, with the line of the first;
* `Manifest.repeats` : those of all the lists, one list after the other;
* `Manifest.reports` : the same in the order of their lines.
-/

namespace ComponentLang

/-- The repeats among named lines, when the names in `seen` have been declared before. -/
def repeatsAfter (kind : DeclarationKind) (seen : List (Text × Int)) :
    List (Text × Int) → List Report
  | [] => []
  | (name, line) :: rest =>
    match Entries.get? name seen with
    | some first => ⟨line, .repeated kind name first⟩ :: repeatsAfter kind seen rest
    | none => repeatsAfter kind (seen ++ [(name, line)]) rest

/-- The repeats among named lines. -/
def repeats (kind : DeclarationKind) (items : List (Text × Int)) : List Report :=
  repeatsAfter kind [] items

namespace Manifest

/-- The repeats among props, states, derived values and functions. -/
def repeats (m : Manifest) : List Report :=
  ComponentLang.repeats .prop (m.props.map fun d => (d.id, d.line)) ++
    ComponentLang.repeats .state (m.state.map fun d => (d.id, d.line)) ++
    ComponentLang.repeats .derived (m.derived.map fun d => (d.id, d.line)) ++
    ComponentLang.repeats .function (m.functions.map fun f => (f.name, f.line))

/-- The reports on a manifest, in the order of their lines. A line before the first counts as
none. -/
def reports (m : Manifest) (warnRepeats : Bool) : List Report :=
  if warnRepeats then m.repeats.mergeSort fun a b => a.line.toNat ≤ b.line.toNat else []

end Manifest

end ComponentLang
