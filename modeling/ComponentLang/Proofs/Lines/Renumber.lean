import ComponentLang.Repeats
import ComponentLang.Scope.Tree
import Mathlib.Tactic.SplitIfs

/-!
# Renumbered lines

All that a source declares remembers the line it stands on. Here these lines get new numbers.

* `LogicItem.renumber`, `ViewNode.renumber`, `Branch.renumber` : items, nodes and branches, with all
  that they hold (`renumberBody_eq`, `renumberAll_eq`);
* `Manifest.renumber` : a whole manifest;
* `Report.renumber` : a report. A repeated declaration names two lines;
* `renumber_setChildren`, `renumber_setBody` and so on : bodies may be filled in before or after;
* `Manifest.renumber_id` : numbers that stay change nothing;
* `KeepsOrder`, `Manifest.reports_renumber` : numbers that keep their order keep that of the reports.
-/

namespace ComponentLang

variable (g : Int → Int)

/-! ## Logic -/

mutual

def LogicItem.renumber : LogicItem → LogicItem
  | .line text l => .line text (g l)
  | .assertion expression l => .assertion expression (g l)
  | .block header body l => .block header (renumberBody body) (g l)

def renumberBody : List LogicItem → List LogicItem
  | [] => []
  | item :: rest => item.renumber :: renumberBody rest

end

theorem renumberBody_eq (items : List LogicItem) :
    renumberBody g items = items.map (LogicItem.renumber g) := by
  induction items with
  | nil => rfl
  | cons item rest ih => rw [renumberBody, ih, List.map_cons]

@[simp] theorem LogicItem.renumber_line (text : Text) (l : Int) :
    (LogicItem.line text l).renumber g = .line text (g l) := rfl

@[simp] theorem LogicItem.renumber_assertion (expression : Text) (l : Int) :
    (LogicItem.assertion expression l).renumber g = .assertion expression (g l) := rfl

@[simp] theorem LogicItem.renumber_block (header : Text) (body : List LogicItem) (l : Int) :
    (LogicItem.block header body l).renumber g =
      .block header (body.map (LogicItem.renumber g)) (g l) := by
  rw [LogicItem.renumber, renumberBody_eq]

theorem LogicItem.renumber_setBody (body : List LogicItem) (item : LogicItem) :
    (item.setBody body).renumber g =
      (item.renumber g).setBody (body.map (LogicItem.renumber g)) := by
  cases item <;> simp [LogicItem.setBody]

/-! ## Views -/

mutual

def ViewNode.renumber : ViewNode → ViewNode
  | .text content mode l => .text content mode (g l)
  | .element tag attributes ref children l =>
    .element tag attributes ref (renumberAll children) (g l)
  | .fragment children l => .fragment (renumberAll children) (g l)
  | .each list item children l => .each list item (renumberAll children) (g l)
  | .cond chain => .cond (renumberChain chain)
  | .choice subject cases fallback l =>
    .choice subject (renumberBranches cases) (renumberFallback fallback) (g l)
  | .slot name l => .slot name (g l)

def renumberAll : List ViewNode → List ViewNode
  | [] => []
  | node :: rest => node.renumber :: renumberAll rest

def renumberBranch : Branch ViewNode → Branch ViewNode
  | ⟨condition, children, l⟩ => ⟨condition, renumberAll children, g l⟩

def renumberChain : Chain ViewNode → Chain ViewNode
  | .last b => .last (renumberBranch b)
  | .link b alternate => .link (renumberBranch b) (renumberChain alternate)

def renumberBranches : List (Branch ViewNode) → List (Branch ViewNode)
  | [] => []
  | b :: rest => renumberBranch b :: renumberBranches rest

def renumberFallback : Option (Branch ViewNode) → Option (Branch ViewNode)
  | none => none
  | some b => some (renumberBranch b)

end

def Branch.renumber (b : Branch ViewNode) : Branch ViewNode :=
  ⟨b.condition, b.children.map (ViewNode.renumber g), g b.line⟩

theorem renumberAll_eq (nodes : List ViewNode) :
    renumberAll g nodes = nodes.map (ViewNode.renumber g) := by
  induction nodes with
  | nil => rfl
  | cons node rest ih => rw [renumberAll, ih, List.map_cons]

theorem renumberBranch_eq (b : Branch ViewNode) : renumberBranch g b = b.renumber g := by
  obtain ⟨condition, children, l⟩ := b
  rw [renumberBranch, renumberAll_eq]
  rfl

theorem renumberBranches_eq (bs : List (Branch ViewNode)) :
    renumberBranches g bs = bs.map (Branch.renumber g) := by
  induction bs with
  | nil => rfl
  | cons b rest ih => rw [renumberBranches, ih, renumberBranch_eq, List.map_cons]

theorem renumberFallback_eq (b : Option (Branch ViewNode)) :
    renumberFallback g b = b.map (Branch.renumber g) := by
  cases b with
  | none => rfl
  | some b => rw [renumberFallback, renumberBranch_eq, Option.map_some]

namespace ViewNode

@[simp] theorem renumber_text (content : Text) (mode : TextMode) (l : Int) :
    (ViewNode.text content mode l).renumber g = .text content mode (g l) := rfl

@[simp] theorem renumber_element (tag : Text) (attributes : Table Text) (ref : Option Text)
    (children : List ViewNode) (l : Int) :
    (ViewNode.element tag attributes ref children l).renumber g =
      .element tag attributes ref (children.map (ViewNode.renumber g)) (g l) := by
  rw [ViewNode.renumber, renumberAll_eq]

@[simp] theorem renumber_fragment (children : List ViewNode) (l : Int) :
    (ViewNode.fragment children l).renumber g =
      .fragment (children.map (ViewNode.renumber g)) (g l) := by
  rw [ViewNode.renumber, renumberAll_eq]

@[simp] theorem renumber_each (list item : Text) (children : List ViewNode) (l : Int) :
    (ViewNode.each list item children l).renumber g =
      .each list item (children.map (ViewNode.renumber g)) (g l) := by
  rw [ViewNode.renumber, renumberAll_eq]

@[simp] theorem renumber_cond (chain : Chain ViewNode) :
    (ViewNode.cond chain).renumber g = .cond (renumberChain g chain) := rfl

@[simp] theorem renumber_choice (subject : Text) (cases : List (Branch ViewNode))
    (fallback : Option (Branch ViewNode)) (l : Int) :
    (ViewNode.choice subject cases fallback l).renumber g =
      .choice subject (cases.map (Branch.renumber g)) (fallback.map (Branch.renumber g)) (g l) := by
  rw [ViewNode.renumber, renumberBranches_eq, renumberFallback_eq]

@[simp] theorem renumber_slot (name : Text) (l : Int) :
    (ViewNode.slot name l).renumber g = .slot name (g l) := rfl

@[simp] theorem isCond_renumber (node : ViewNode) : (node.renumber g).isCond = node.isCond := by
  cases node <;> simp [isCond]

theorem renumber_setChildren (nodes : List ViewNode) (node : ViewNode) :
    (node.setChildren nodes).renumber g =
      (node.renumber g).setChildren (nodes.map (ViewNode.renumber g)) := by
  cases node with
  | cond chain =>
    cases chain <;>
      simp [setChildren, Chain.mapFirst, renumberChain, renumberBranch_eq, Branch.renumber]
  | _ => simp [setChildren]

theorem renumber_setBranches (cases : List (Branch ViewNode)) (fallback : Option (Branch ViewNode))
    (node : ViewNode) :
    (node.setBranches cases fallback).renumber g =
      (node.renumber g).setBranches (cases.map (Branch.renumber g))
        (fallback.map (Branch.renumber g)) := by
  cases node <;> simp [setBranches]

theorem renumberChain_withAlternate (chain : Chain ViewNode) (b : Branch ViewNode) :
    renumberChain g (chain.withAlternate (.last b)) =
      (renumberChain g chain).withAlternate (.last (b.renumber g)) := by
  induction chain with
  | last b' => simp [Chain.withAlternate, renumberChain, renumberBranch_eq]
  | link b' rest ih => simp [Chain.withAlternate, renumberChain, ih]

theorem renumber_addAlternate (b : Branch ViewNode) (node : ViewNode) :
    (node.addAlternate b).renumber g = (node.renumber g).addAlternate (b.renumber g) := by
  cases node with
  | cond chain => exact congrArg ViewNode.cond (renumberChain_withAlternate g chain b)
  | _ => simp [addAlternate]

end ViewNode

theorem renumber_elementNode (e : Element) (l : Int) :
    (Scope.elementNode e l).renumber g = Scope.elementNode e (g l) := by
  unfold Scope.elementNode
  split_ifs <;> simp

theorem renumber_inlineNodes (inline : Option Text) (l : Int) :
    (inlineNodes inline l).map (ViewNode.renumber g) = inlineNodes inline (g l) := by
  cases inline <;> simp [inlineNodes]

/-! ## Manifests -/

def Declaration.renumber (d : Declaration) : Declaration := { d with line := g d.line }

def Derived.renumber (d : Derived) : Derived := { d with line := g d.line }

def FunctionDecl.renumber (f : FunctionDecl) : FunctionDecl :=
  { f with body := f.body.map (LogicItem.renumber g), line := g f.line }

def Watcher.renumber (w : Watcher) : Watcher :=
  { w with body := w.body.map (LogicItem.renumber g), line := g w.line }

def PersonaTest.renumber (p : PersonaTest) : PersonaTest :=
  { p with body := p.body.map (LogicItem.renumber g), line := g p.line }

def StyleRule.renumber (r : StyleRule) : StyleRule := { r with line := g r.line }

/-- The manifest with `g l` in the place of each line `l`. -/
def Manifest.renumber (m : Manifest) : Manifest :=
  { m with
    props := m.props.map (Declaration.renumber g)
    state := m.state.map (Declaration.renumber g)
    derived := m.derived.map (Derived.renumber g)
    functions := m.functions.map (FunctionDecl.renumber g)
    lifecycle := m.lifecycle.map (LogicItem.renumber g)
    watchers := m.watchers.map (Watcher.renumber g)
    styleRules := m.styleRules.map (StyleRule.renumber g)
    view := m.view.map (ViewNode.renumber g)
    tests := m.tests.map (PersonaTest.renumber g) }

theorem Manifest.renumber_withCompanions (m : Manifest) (c : Companions) :
    (m.withCompanions c).renumber g = (m.renumber g).withCompanions c := rfl

/-! ## Numbers that stay -/

mutual

theorem LogicItem.renumber_id : ∀ item : LogicItem, item.renumber id = item
  | .line _ _ => rfl
  | .assertion _ _ => rfl
  | .block header body l => by
    rw [LogicItem.renumber, renumberBody_id body]
    rfl

theorem renumberBody_id : ∀ items : List LogicItem, renumberBody id items = items
  | [] => rfl
  | item :: rest => by rw [renumberBody, item.renumber_id, renumberBody_id rest]

end

mutual

theorem ViewNode.renumber_id : ∀ node : ViewNode, node.renumber id = node
  | .text _ _ _ => rfl
  | .element _ _ _ children _ => by
    rw [ViewNode.renumber, renumberAll_id children]
    rfl
  | .fragment children _ => by
    rw [ViewNode.renumber, renumberAll_id children]
    rfl
  | .each _ _ children _ => by
    rw [ViewNode.renumber, renumberAll_id children]
    rfl
  | .cond chain => by rw [ViewNode.renumber, renumberChain_id chain]
  | .choice _ cases fallback _ => by
    rw [ViewNode.renumber, renumberBranches_id cases, renumberFallback_id fallback]
    rfl
  | .slot _ _ => rfl

theorem renumberAll_id : ∀ nodes : List ViewNode, renumberAll id nodes = nodes
  | [] => rfl
  | node :: rest => by rw [renumberAll, node.renumber_id, renumberAll_id rest]

theorem renumberBranch_id : ∀ b : Branch ViewNode, renumberBranch id b = b
  | ⟨_, children, _⟩ => by
    rw [renumberBranch, renumberAll_id children]
    rfl

theorem renumberChain_id : ∀ chain : Chain ViewNode, renumberChain id chain = chain
  | .last b => by rw [renumberChain, renumberBranch_id b]
  | .link b alternate => by rw [renumberChain, renumberBranch_id b, renumberChain_id alternate]

theorem renumberBranches_id : ∀ bs : List (Branch ViewNode), renumberBranches id bs = bs
  | [] => rfl
  | b :: rest => by rw [renumberBranches, renumberBranch_id b, renumberBranches_id rest]

theorem renumberFallback_id : ∀ b : Option (Branch ViewNode), renumberFallback id b = b
  | none => rfl
  | some b => by rw [renumberFallback, renumberBranch_id b]

end

theorem Manifest.renumber_id (m : Manifest) : m.renumber id = m := by
  have hitems : LogicItem.renumber id = id := funext LogicItem.renumber_id
  have hnodes : ViewNode.renumber id = id := funext ViewNode.renumber_id
  have hdeclarations : Declaration.renumber id = id := funext fun _ => rfl
  have hderived : Derived.renumber id = id := funext fun _ => rfl
  have hrules : StyleRule.renumber id = id := funext fun _ => rfl
  have hfunctions : FunctionDecl.renumber id = id := by
    funext f
    simp [FunctionDecl.renumber, hitems]
  have hwatchers : Watcher.renumber id = id := by
    funext w
    simp [Watcher.renumber, hitems]
  have htests : PersonaTest.renumber id = id := by
    funext p
    simp [PersonaTest.renumber, hitems]
  simp only [Manifest.renumber, hitems, hnodes, hdeclarations, hderived, hrules, hfunctions,
    hwatchers, htests, List.map_id]

/-! ## Reports -/

/-- The problem with new lines. Only a repeat names one. -/
def Problem.renumber : Problem → Problem
  | .misaligned used unit => .misaligned used unit
  | .repeated kind name first => .repeated kind name (g first)

def Report.renumber (r : Report) : Report := ⟨g r.line, r.problem.renumber g⟩

theorem get?_renumber (name : Text) (items : List (Text × Int)) :
    Entries.get? name (items.map fun e => (e.1, g e.2)) = (Entries.get? name items).map g := by
  induction items with
  | nil => rfl
  | cons e items ih =>
    rw [List.map_cons, Entries.get?, Entries.get?]
    split_ifs
    · rfl
    · exact ih

theorem repeatsAfter_renumber (kind : DeclarationKind) (seen items : List (Text × Int)) :
    repeatsAfter kind (seen.map fun e => (e.1, g e.2)) (items.map fun e => (e.1, g e.2)) =
      (repeatsAfter kind seen items).map (Report.renumber g) := by
  induction items generalizing seen with
  | nil => rfl
  | cons e items ih =>
    obtain ⟨name, line⟩ := e
    rw [List.map_cons, repeatsAfter, repeatsAfter, get?_renumber]
    cases Entries.get? name seen with
    | none =>
      have hseen := ih (seen ++ [(name, line)])
      rw [List.map_append] at hseen
      exact hseen
    | some first =>
      show _ :: _ = _ :: _
      rw [ih]
      rfl

theorem Manifest.repeats_renumber (m : Manifest) :
    (m.renumber g).repeats = m.repeats.map (Report.renumber g) := by
  have hkind : ∀ {α : Type} (kind : DeclarationKind) (l : List α) (id : α → Text) (line : α → Int),
      repeatsAfter kind [] (l.map fun d => (id d, g (line d))) =
        (repeatsAfter kind [] (l.map fun d => (id d, line d))).map (Report.renumber g) := by
    intro α kind l id line
    have h := repeatsAfter_renumber g kind [] (l.map fun d => (id d, line d))
    rwa [List.map_map] at h
  simp only [Manifest.repeats, ComponentLang.repeats, Manifest.renumber, List.map_map, List.map_append]
  rw [← hkind, ← hkind, ← hkind, ← hkind]
  rfl

/-- Greater numbers stay greater, and zero stays zero. -/
structure KeepsOrder : Prop where
  lt : ∀ i j, i < j → g i < g j
  zero : g 0 = 0

variable {g}

theorem KeepsOrder.lt_iff (hg : KeepsOrder g) (i j : Int) : g i < g j ↔ i < j := by
  refine ⟨fun h => ?_, hg.lt i j⟩
  rcases Int.lt_trichotomy i j with hij | rfl | hij
  · exact hij
  · omega
  · have := hg.lt j i hij
    omega

/-- Numbers that keep their order compare like the old ones. A line before the first counts as none. -/
theorem KeepsOrder.toNat_le_iff (hg : KeepsOrder g) (i j : Int) :
    (g i).toNat ≤ (g j).toNat ↔ i.toNat ≤ j.toNat := by
  have hij := hg.lt_iff j i
  have hi := hg.lt_iff 0 i
  have hj := hg.lt_iff 0 j
  rw [hg.zero] at hi hj
  omega

/-- **Reports keep their order with their lines.** -/
theorem Manifest.reports_renumber (hg : KeepsOrder g) (m : Manifest) (warn : Bool) :
    (m.renumber g).reports warn = (m.reports warn).map (Report.renumber g) := by
  unfold Manifest.reports
  split_ifs
  · rw [repeats_renumber]
    -- sorting is stable, so it is enough that lines compare as before
    refine (List.map_mergeSort fun a _ b _ => ?_).symm
    rw [decide_eq_decide]
    exact (hg.toNat_le_iff a.line b.line).symm
  · rfl

end ComponentLang
