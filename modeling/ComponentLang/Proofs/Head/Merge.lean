import ComponentLang.Head
import ComponentLang.Proofs.Table.Merge

/-!
# Merging heads

* `combines_section` : sections are taken up pair by pair;
* `Head.merge_assoc`, `Head.empty_merge`, `Head.merge_empty` : heads are a monoid.
-/

namespace ComponentLang

namespace Head

theorem combines_section :
    Combines fun (old : Option (Table Text)) (pairs : Table Text) => (old.getD .empty).merge pairs :=
  ⟨Table.empty_merge, fun _ _ _ => Table.merge_assoc _ _ _⟩

/-- **Heads may be merged in any grouping.** -/
theorem merge_assoc (a b c : Head) : (a.merge b).merge c = a.merge (b.merge c) := by
  have hsections := Table.absorb_absorb combines_section a.sections b.sections c.sections.entries
  have hfields := Table.merge_assoc a.fields b.fields c.fields
  have hlinks := List.append_assoc a.links b.links c.links
  exact (Head.mk.injEq ..).mpr ⟨hfields, hsections.symm, hlinks⟩

theorem empty_merge (h : Head) : empty.merge h = h :=
  (Head.mk.injEq ..).mpr
    ⟨Table.empty_merge h.fields, Table.empty_absorb combines_section h.sections, rfl⟩

theorem merge_empty (h : Head) : h.merge empty = h :=
  (Head.mk.injEq ..).mpr ⟨rfl, rfl, List.append_nil _⟩

end Head

end ComponentLang
