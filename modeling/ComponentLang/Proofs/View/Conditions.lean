import ComponentLang.Proofs.View.Every

/-!
# Conditions, wherever they stand in a view

* `Chain.conditions` : the conditions of the branches, in the order in which they are tried;
* `Everywhere p` : the conditions of every conditional node in a forest satisfy `p`;
* `Conditional p` : the same of one node, so that `everywhere_iff` leads back to every node of a forest;
* `Scope.Throughout p` : the same of the forest and of all that the open blocks have gathered;
* `Throughout.closeTop`, `Throughout.dispatch` : how this is kept when a block closes, if `p` allows for
  one more condition when a branch is linked, and by every line.
-/

namespace ComponentLang

/-! ## Conditions of a chain -/

namespace Chain

variable {ν : Type}

/-- The conditions of the branches, in order. -/
def conditions (c : Chain ν) : List (Option Text) := c.branches.map Branch.condition

theorem conditions_withAlternate (c : Chain ν) (b : Branch ν) :
    (c.withAlternate (.last b)).conditions = c.conditions ++ [b.condition] := by
  rw [conditions, branches_withAlternate, List.map_append]
  rfl

theorem conditions_setChildren (c : Chain ν) (children : List ν) :
    (c.mapFirst fun b => { b with children := children }).conditions = c.conditions := by
  cases c <;> rfl

theorem head?_conditions (c : Chain ν) : c.conditions.head? = some c.first.condition := by
  cases c <;> rfl

end Chain

/-! ## Conditions in a forest -/

/-- The conditions of every conditional node satisfy `p`. -/
def Everywhere (p : List (Option Text) → Prop) (nodes : List ViewNode) : Prop :=
  ∀ chain, ViewNode.cond chain ∈ walkAll nodes → p chain.conditions

/-- If the node is conditional, its conditions satisfy `p`. -/
def Conditional (p : List (Option Text) → Prop) (node : ViewNode) : Prop :=
  ∀ chain, node = .cond chain → p chain.conditions

section

variable {p : List (Option Text) → Prop}

theorem everywhere_iff {nodes : List ViewNode} :
    Everywhere p nodes ↔ EveryNode (Conditional p) nodes :=
  ⟨fun h _ hnode chain heq => h chain (heq ▸ hnode), fun h _ hchain => h _ hchain _ rfl⟩

theorem ignoresFilling_conditional : IgnoresFilling (Conditional p) where
  setChildren node children hnode := by
    cases node with
    | cond chain =>
      rintro _ ⟨⟩
      rw [Chain.conditions_setChildren]
      exact hnode chain rfl
    | _ => rintro _ ⟨⟩
  setBranches node cases fallback hnode := by
    cases node with
    | cond chain => exact hnode
    | _ => rintro _ ⟨⟩

/-- A line alone brings a chain of one branch at most, and this branch has a condition. -/
theorem brings_conditional (hp : ∀ c : Text, p [some c]) (t : Token) :
    (ViewLine.read t).Brings (Conditional p) t.line := by
  refine brings_read ignoresFilling_conditional ?_ ?_ ?_ ?_ ?_ ?_
  · rintro content mode l _ ⟨⟩
  · rintro list item l _ ⟨⟩
  · rintro condition l _ ⟨⟩
    exact hp condition
  · rintro subject l _ ⟨⟩
  · rintro name inline _ _ _ _ ⟨⟩
  · intro e _ _ _ chain heq
    unfold Scope.elementNode at heq
    split_ifs at heq

end

/-! ## Conditions in a scope -/

namespace Scope

/-- The conditions of every conditional node satisfy `p`, in the forest and in the open blocks. -/
structure Throughout (p : List (Option Text) → Prop) (s : Scope) : Prop where
  view : Everywhere p s.manifest.view
  bodies : ∀ f ∈ s.frames, ∀ body ∈ f.block.bodies, Everywhere p body

/-- One more condition may follow those of the node to which the innermost block is linked. -/
def Links (p : List (Option Text) → Prop) (s : Scope) : Prop :=
  ∀ depth line slot condition nodes rest,
    s.frames = ⟨depth, line, .view (.alternate slot condition) nodes⟩ :: rest →
    ∀ chain, (sinkOf s.manifest.view rest)[slot]? = some (.cond chain) → p chain.conditions →
      p (chain.conditions ++ [condition])

section

variable {p : List (Option Text) → Prop} {s s' : Scope}

theorem throughout_iff : s.Throughout p ↔ s.EveryNode (Conditional p) :=
  ⟨fun h => ⟨everywhere_iff.1 h.view, fun f hf body hbody => everywhere_iff.1 (h.bodies f hf body hbody)⟩,
    fun h => ⟨everywhere_iff.2 h.view, fun f hf body hbody => everywhere_iff.2 (h.bodies f hf body hbody)⟩⟩

theorem throughout_start (p : List (Option Text) → Prop) : start.Throughout p :=
  throughout_iff.2 everyNode_start

theorem Links.allowsLink (h : s.Links p) : s.AllowsLink (Conditional p) := by
  intro depth line slot condition nodes rest hframes node hat hnode
  cases node with
  | cond chain =>
    rintro _ ⟨⟩
    rw [Chain.conditions_withAlternate]
    exact h depth line slot condition nodes rest hframes chain hat (hnode chain rfl)
  | _ => rintro _ ⟨⟩

/-- A block that closes leaves its bodies behind, and an alternate its condition. -/
theorem Throughout.closeTop (h : s.Throughout p) (hlinks : s.Links p) : s.closeTop.Throughout p :=
  throughout_iff.2 ((throughout_iff.1 h).closeTop ignoresFilling_conditional hlinks.allowsLink)

theorem Throughout.dispatch (hp : ∀ c : Text, p [some c]) (h : s.Throughout p) {t : Token}
    (hline : s.dispatch t = .ok s') : s'.Throughout p := by
  refine throughout_iff.2 ((throughout_iff.1 h).dispatch ?_ (fun _ _ => brings_conditional hp t) hline)
  rintro content mode l _ ⟨⟩

end

end Scope

end ComponentLang
