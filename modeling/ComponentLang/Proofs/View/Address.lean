import ComponentLang.View.Walk
import Mathlib.Data.List.Forall2

/-!
# Addresses in a view

The same node may stand in a forest several times, so a node that is to be replaced is told by its
place: in the forest, or in a body of one of the nodes there, and so on down.

* `ViewNode.modifyBody` : changes one body of a node, and nothing else (`childLists_modifyBody`);
* `Address`, `node?`, `replace` : places in a forest, the node at one, and another node put there;
* `mem_walkAll_iff` : a walk comes to the nodes that have addresses, and to no others;
* `SameButFor old new` : a node before and after `new` was put for `old` in one of its bodies;
* `walkAll_replace` : what a walk comes to once a node was replaced. It differs in the walk through
  the node itself, and in the nodes around it, which hold the new node.
-/

namespace ComponentLang

/-! ## Bodies -/

/-- Changes the nodes of a branch. -/
def Branch.mapChildren {ν : Type} (f : List ν → List ν) (b : Branch ν) : Branch ν :=
  { b with children := f b.children }

/-- Changes the branch at a place of a chain. -/
def Chain.modify {ν : Type} (f : Branch ν → Branch ν) : Nat → Chain ν → Chain ν
  | 0, .last b => .last (f b)
  | _ + 1, .last b => .last b
  | 0, .link b rest => .link (f b) rest
  | i + 1, .link b rest => .link b (rest.modify f i)

/-- Changes the body at a place among those that the node holds. -/
def ViewNode.modifyBody (f : List ViewNode → List ViewNode) : Nat → ViewNode → ViewNode
  | 0, .element tag attributes ref children l => .element tag attributes ref (f children) l
  | 0, .fragment children l => .fragment (f children) l
  | 0, .each list item children l => .each list item (f children) l
  | i, .cond chain => .cond (chain.modify (Branch.mapChildren f) i)
  | i, .choice subject cases fallback l =>
    .choice subject (cases.modify i (Branch.mapChildren f))
      (if i = cases.length then fallback.map (Branch.mapChildren f) else fallback) l
  | _, node => node

section

variable {ν : Type}

theorem Chain.branches_modify (f : Branch ν → Branch ν) (i : Nat) (c : Chain ν) :
    (c.modify f i).branches = c.branches.modify i f := by
  induction c generalizing i with
  | last b => cases i <;> simp [modify, branches]
  | link b rest ih => cases i <;> simp [modify, branches, ih]

theorem map_children_modify (f : List ν → List ν) (i : Nat) (bs : List (Branch ν)) :
    (bs.modify i (Branch.mapChildren f)).map Branch.children =
      (bs.map Branch.children).modify i f := by
  induction bs generalizing i with
  | nil => simp
  | cons b bs ih => cases i <;> simp [ih, Branch.mapChildren]

/-- The fallback of a choice is its last branch. -/
theorem modify_branches (f : Branch ν → Branch ν) (i : Nat) (cases : List (Branch ν))
    (fallback : Option (Branch ν)) :
    (cases ++ fallback.toList).modify i f =
      cases.modify i f ++ (if i = cases.length then fallback.map f else fallback).toList := by
  induction cases generalizing i with
  | nil => cases i <;> cases fallback <;> simp
  | cons b cases ih => cases i <;> simp [ih]

end

theorem ViewNode.childLists_modifyBody (f : List ViewNode → List ViewNode) (i : Nat)
    (node : ViewNode) : (node.modifyBody f i).childLists = node.childLists.modify i f := by
  cases node with
  | cond chain =>
    rw [modifyBody, childLists, Chain.branches_modify, map_children_modify, childLists]
  | choice subject cases fallback l =>
    rw [modifyBody, childLists, ← modify_branches, map_children_modify, childLists]
  | _ => cases i <;> simp [modifyBody, childLists]

/-! ### Induction on bodies -/

theorem Branch.sizeOf_children_lt {ν : Type} [SizeOf ν] (b : Branch ν) :
    sizeOf b.children < sizeOf b := by
  cases b
  simp only [Branch.mk.sizeOf_spec]
  omega

theorem Chain.sizeOf_branch_lt {ν : Type} [SizeOf ν] {b : Branch ν} {c : Chain ν}
    (h : b ∈ c.branches) : sizeOf b < sizeOf c := by
  induction c with
  | last b' =>
    rw [List.mem_singleton.1 h, Chain.last.sizeOf_spec]
    omega
  | link b' rest ih =>
    rw [Chain.link.sizeOf_spec]
    rcases List.mem_cons.1 h with rfl | h
    · omega
    · have hrest := ih h
      omega

theorem ViewNode.sizeOf_body_lt {node : ViewNode} {body : List ViewNode}
    (h : body ∈ node.childLists) : sizeOf body < sizeOf node := by
  cases node with
  | text => cases h
  | element =>
    rw [List.mem_singleton.1 h, element.sizeOf_spec]
    omega
  | fragment =>
    rw [List.mem_singleton.1 h, fragment.sizeOf_spec]
    omega
  | each =>
    rw [List.mem_singleton.1 h, each.sizeOf_spec]
    omega
  | cond chain =>
    obtain ⟨b, hb, rfl⟩ := List.mem_map.1 h
    rw [cond.sizeOf_spec]
    have hchildren := b.sizeOf_children_lt
    have hbranch := Chain.sizeOf_branch_lt hb
    omega
  | choice subject cases fallback l =>
    obtain ⟨b, hb, rfl⟩ := List.mem_map.1 h
    rw [choice.sizeOf_spec]
    have hchildren := b.sizeOf_children_lt
    rcases List.mem_append.1 hb with hb | hb
    · have hbranch := List.sizeOf_lt_of_mem hb
      omega
    · rw [Option.mem_toList.1 hb, Option.some.sizeOf_spec]
      omega
  | slot => cases h

/-- What holds of a node if it holds of all nodes in its bodies, holds of every node. -/
@[elab_as_elim]
theorem ViewNode.bodies_induction {P : ViewNode → Prop}
    (h : ∀ node, (∀ body ∈ node.childLists, ∀ inner ∈ body, P inner) → P node) (node : ViewNode) :
    P node :=
  h node fun _ hbody inner hinner =>
    have : sizeOf inner < sizeOf node :=
      Nat.lt_trans (List.sizeOf_lt_of_mem hinner) (sizeOf_body_lt hbody)
    bodies_induction h inner
termination_by sizeOf node

/-! ## Splitting walks -/

/-- A list around one of its elements, before and after this is changed. -/
theorem exists_append_modify {α : Type} {l : List α} {k : Nat} {a : α} (h : l[k]? = some a)
    (f : α → α) : ∃ left right, left.length = k ∧ l = left ++ a :: right ∧
      l.modify k f = left ++ f a :: right := by
  obtain ⟨hk, -⟩ := List.getElem?_eq_some_iff.1 h
  obtain ⟨left, b, right, rfl, rfl, hmodify⟩ := List.exists_of_modify f hk
  obtain rfl : b = a := by simpa using h
  exact ⟨left, right, rfl, rfl, hmodify⟩

/-- The walk through a forest, split at one of its nodes. -/
theorem walkAll_append_cons (left : List ViewNode) (node : ViewNode) (right : List ViewNode) :
    walkAll (left ++ node :: right) = walkAll left ++ (node.walk ++ walkAll right) := by
  simp only [walkAll_eq, List.flatMap_append, List.flatMap_cons]

/-- The walk through a node, split at one of its bodies. -/
theorem walk_of_childLists {node : ViewNode} {body : List ViewNode}
    {left right : List (List ViewNode)} (h : node.childLists = left ++ body :: right) :
    node.walk = node :: (left.flatMap walkAll ++ (walkAll body ++ right.flatMap walkAll)) := by
  rw [walk_eq, h, List.flatMap_append, List.flatMap_cons]

/-- A walk through a node comes to the node, and to what stands under the nodes in its bodies. -/
theorem mem_walk_iff {node holder : ViewNode} :
    node ∈ holder.walk ↔
      node = holder ∨ ∃ body ∈ holder.childLists, ∃ inner ∈ body, node ∈ inner.walk := by
  rw [walk_eq]
  simp only [List.mem_cons, List.mem_flatMap, walkAll_eq]

/-! ## Addresses -/

/-- A place in a forest. -/
inductive Address where
  /-- The place `k` in the forest itself. -/
  | slot (k : Nat)
  /-- A place in the body `i` of the node at the place `k`. -/
  | inside (k i : Nat) (inner : Address)

namespace Address

/-- The node at an address. -/
def node? : Address → List ViewNode → Option ViewNode
  | slot k, nodes => nodes[k]?
  | inside k i inner, nodes => nodes[k]?.bind fun holder => holder.childLists[i]?.bind inner.node?

/-- Puts a node at an address, in the place of the one that is there. -/
def replace (new : ViewNode) : Address → List ViewNode → List ViewNode
  | slot k, nodes => nodes.set k new
  | inside k i inner, nodes => nodes.modify k (ViewNode.modifyBody (inner.replace new) i)

theorem node?_inside_eq_some_iff {k i : Nat} {inner : Address} {nodes : List ViewNode}
    {node : ViewNode} :
    (inside k i inner).node? nodes = some node ↔
      ∃ holder body, nodes[k]? = some holder ∧ holder.childLists[i]? = some body ∧
        inner.node? body = some node := by
  simp [node?, Option.bind_eq_some_iff]

/-- Every node that the walk through a node comes to can be told by an address. -/
theorem exists_of_mem_walk {node holder : ViewNode} (h : node ∈ holder.walk) :
    ∀ {k : Nat} {nodes : List ViewNode}, nodes[k]? = some holder →
      ∃ p : Address, p.node? nodes = some node := by
  induction holder using ViewNode.bodies_induction with
  | h holder ih =>
    intro k nodes hholder
    rcases mem_walk_iff.1 h with rfl | ⟨body, hbody, inner, hinner, h⟩
    · exact ⟨slot k, hholder⟩
    · obtain ⟨i, hi⟩ := List.mem_iff_getElem?.1 hbody
      obtain ⟨j, hj⟩ := List.mem_iff_getElem?.1 hinner
      obtain ⟨p, hp⟩ := ih body hbody inner hinner h hj
      exact ⟨inside k i p, node?_inside_eq_some_iff.2 ⟨holder, body, hholder, hi, hp⟩⟩

/-- A walk comes to the nodes that have addresses, and to no others. -/
theorem mem_walkAll_iff {node : ViewNode} {nodes : List ViewNode} :
    node ∈ walkAll nodes ↔ ∃ p : Address, p.node? nodes = some node := by
  rw [walkAll_eq, List.mem_flatMap]
  constructor
  · rintro ⟨holder, hholder, h⟩
    obtain ⟨k, hk⟩ := List.mem_iff_getElem?.1 hholder
    exact exists_of_mem_walk h hk
  · rintro ⟨p, h⟩
    induction p generalizing nodes with
    | slot k => exact ⟨node, List.mem_of_getElem? h, mem_walk_iff.2 (Or.inl rfl)⟩
    | inside k i inner ih =>
      obtain ⟨holder, body, hholder, hbody, h⟩ := node?_inside_eq_some_iff.1 h
      refine ⟨holder, List.mem_of_getElem? hholder, mem_walk_iff.2 (Or.inr ?_)⟩
      exact ⟨body, List.mem_of_getElem? hbody, ih h⟩

/-! ## Replacing a node -/

/-- The second node is the first one, or the first one with `new` for `old` in one of its bodies. -/
def SameButFor (old new node node' : ViewNode) : Prop :=
  node' = node ∨ ∃ i body p, node.childLists[i]? = some body ∧ node? p body = some old ∧
    node' = node.modifyBody (p.replace new) i

theorem forall₂_sameButFor (old new : ViewNode) (nodes : List ViewNode) :
    nodes.Forall₂ (SameButFor old new) nodes :=
  List.forall₂_same.2 fun _ _ => Or.inl rfl

/-- When a node is replaced, a walk through the forest comes to what the new node holds, where it
came to what the old one held. All that comes after is the same, and of what comes before only the
nodes around it are not the same, in which it was replaced. -/
theorem walkAll_replace {p : Address} {nodes : List ViewNode} {old : ViewNode}
    (h : p.node? nodes = some old) (new : ViewNode) :
    ∃ before before' after,
      walkAll nodes = before ++ (old.walk ++ after) ∧
      walkAll (p.replace new nodes) = before' ++ (new.walk ++ after) ∧
      before.Forall₂ (SameButFor old new) before' := by
  induction p generalizing nodes with
  | slot k =>
    obtain ⟨left, right, -, hnodes, hreplace⟩ := exists_append_modify h fun _ => new
    refine ⟨walkAll left, walkAll left, walkAll right, ?_, ?_, forall₂_sameButFor _ _ _⟩
    · rw [hnodes, walkAll_append_cons]
    · rw [replace, List.set_eq_modify, hreplace, walkAll_append_cons]
  | inside k i inner ih =>
    obtain ⟨holder, body, hholder, hbody, h⟩ := node?_inside_eq_some_iff.1 h
    obtain ⟨before, before', after, hwalk, hwalk', hsame⟩ := ih h
    -- the forest is split at the node that holds the body, and its bodies at this one
    let holder' := holder.modifyBody (inner.replace new) i
    obtain ⟨left, right, -, hnodes, hreplace⟩ :=
      exists_append_modify hholder (ViewNode.modifyBody (inner.replace new) i)
    obtain ⟨bodies, bodies', -, hbodies, hbodies'⟩ := exists_append_modify hbody (inner.replace new)
    have hholder' : holder'.childLists = bodies ++ inner.replace new body :: bodies' := by
      rw [ViewNode.childLists_modifyBody, hbodies']
    refine ⟨walkAll left ++ holder :: (bodies.flatMap walkAll ++ before),
      walkAll left ++ holder' :: (bodies.flatMap walkAll ++ before'),
      after ++ (bodies'.flatMap walkAll ++ walkAll right), ?_, ?_, ?_⟩
    · rw [hnodes, walkAll_append_cons, walk_of_childLists hbodies, hwalk]
      simp only [List.append_assoc, List.cons_append]
    · rw [replace, hreplace, walkAll_append_cons, walk_of_childLists hholder', hwalk']
      simp only [List.append_assoc, List.cons_append]
    · have hrefl := forall₂_sameButFor old new
      have hhere : SameButFor old new holder holder' := Or.inr ⟨i, body, inner, hbody, h, rfl⟩
      exact List.rel_append (hrefl _) (.cons hhere (List.rel_append (hrefl _) hsame))

end Address

end ComponentLang
