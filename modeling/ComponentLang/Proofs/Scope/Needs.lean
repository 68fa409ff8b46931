import ComponentLang.Compile
import ComponentLang.Proofs.View.Alternates

/-!
# What a build asks for

Limits are in the way of a build only where it asks for more: when a branch is linked to a chain, for
a call for each branch before it, and when a head takes a line, for the blanks that set it off.

* `Need`, `Limits.excess?` : what is asked for at one place, and what it runs into;
* `Limits.grant` : a value, unless one of several needs runs into a limit;
* `buildNeeds` : all that a build asks for, from the first token to the end;
* `buildWithin_eq` : a build within limits gives the manifest of the build without, unless one of the
  needs is too much. The first of these decides. `compileWithin_eq` is the same of a source;
* `Need.IsOf ts`, `isOf_of_mem_buildNeeds` : no more calls than there are alternates among the lines,
  and no blanks but those between the depths of two lines. So `buildWithin_eq_ok` : limits that allow
  for these are never in the way;
* `buildWithin_longChain` : still, no limit on calls is enough for all programs.
-/

namespace ComponentLang

/-- What a build asks for at one place. -/
inductive Need where
  /-- So many calls that are open at once. -/
  | calls (n : Nat)
  /-- So many blanks in one text. -/
  | blanks (n : Nat)
deriving DecidableEq, Repr

namespace Limits

variable {α β : Type}

/-- The limit that is in the way. -/
def excess? (l : Limits) : Need → Option Excess
  | .calls n => if n ≤ l.calls then none else some .calls
  | .blanks n => if n ≤ l.blanks then none else some .blanks

/-- A value that takes all of some needs, asked for in this order. -/
def grant (l : Limits) (needs : List Need) (a : α) : Except Excess α :=
  match needs.findSome? l.excess? with
  | none => .ok a
  | some e => .error e

theorem grant_calls (l : Limits) (n : Nat) (a : α) :
    l.grant [.calls n] a = if n ≤ l.calls then .ok a else .error .calls := by
  unfold grant
  by_cases h : n ≤ l.calls <;> simp [excess?, h]

theorem grant_blanks (l : Limits) (n : Nat) (a : α) :
    l.grant [.blanks n] a = if n ≤ l.blanks then .ok a else .error .blanks := by
  unfold grant
  by_cases h : n ≤ l.blanks <;> simp [excess?, h]

theorem grant_cases (l : Limits) (needs : List Need) (a : α) :
    l.grant needs a = .ok a ∨ ∃ e, l.grant needs a = .error e := by
  unfold grant
  cases needs.findSome? l.excess? with
  | none => exact Or.inl rfl
  | some e => exact Or.inr ⟨e, rfl⟩

theorem eq_of_grant {l : Limits} {needs : List Need} {a b : α} (h : l.grant needs a = .ok b) :
    b = a := by
  rcases l.grant_cases needs a with heq | ⟨e, heq⟩
  · exact Except.ok.inj (h.symm.trans heq)
  · cases h.symm.trans heq

theorem map_grant (l : Limits) (needs : List Need) (a : α) (f : α → β) :
    (l.grant needs a).map f = l.grant needs (f a) := by
  unfold grant
  cases needs.findSome? l.excess? <;> rfl

/-- What is asked for later does not count if something before it was too much. -/
theorem bind_grant {l : Limits} {needs needs' : List Need} {a : α} {b : β}
    {f : α → Except Excess β} (hf : f a = l.grant needs' b) :
    (l.grant needs a).bind f = l.grant (needs ++ needs') b := by
  unfold grant at hf ⊢
  rw [List.findSome?_append]
  cases needs.findSome? l.excess? with
  | none => exact hf
  | some e => rfl

end Limits

/-! ## Needs of a build -/

namespace Scope

/-- What a branch asks for that is linked to the node at the place `slot`. -/
def linkNeeds (slot : Nat) (s : Scope) : List Need :=
  match s.children[slot]? with
  | some (.cond chain) => [.calls chain.branches.length]
  | _ => []

/-- What the innermost block asks for when it closes. -/
def closeTopNeeds (s : Scope) : List Need :=
  match s.frames with
  | ⟨_, _, .view (.alternate slot _) _⟩ :: rest => linkNeeds slot { s with frames := rest }
  | _ => []

/-- What the innermost blocks ask for when so many of them close. -/
def closeManyNeeds : Nat → Scope → List Need
  | 0, _ => []
  | n + 1, s => s.closeTopNeeds ++ closeManyNeeds n s.closeTop

/-- What the blocks ask for that close in front of a line of the given depth. -/
def closeToNeeds (depth : Int) (s : Scope) : List Need :=
  closeManyNeeds (s.frames.takeWhile (depth ≤ ·.depth)).length s

/-- What a line asks for in the innermost block. -/
def lineNeeds (s : Scope) (t : Token) : List Need :=
  match s.frames with
  | ⟨depth, _, .head _⟩ :: _ => [.blanks (headBlanks depth t)]
  | _ => []

/-- What one token asks for. -/
def stepNeeds (s : Scope) (t : Token) : List Need :=
  s.closeToNeeds t.depth ++ (s.closeTo t.depth).lineNeeds t

/-- What tokens ask for in turn. -/
def runNeeds : Scope → List Token → List Need
  | _, [] => []
  | s, t :: ts => s.stepNeeds t ++ runNeeds (s.step t).1 ts

end Scope

/-- What the tokens ask for, and then the blocks that are open at their end. -/
def buildNeeds (ts : List Token) : List Need :=
  Scope.start.runNeeds ts ++ (Scope.start.run ts).closeToNeeds (-1)

/-! ## A build within limits -/

theorem Chain.linkWithin_eq {ν : Type} (calls : Nat) (c alternate : Chain ν) :
    c.linkWithin calls alternate =
      if c.branches.length ≤ calls then .ok (c.withAlternate alternate) else .error .calls := by
  induction c generalizing calls with
  | last b =>
    cases calls with
    | zero => rfl
    | succ calls => exact (if_pos (Nat.le_add_left 1 calls)).symm
  | link b rest ih =>
    cases calls with
    | zero => exact (if_neg (Nat.not_succ_le_zero _)).symm
    | succ calls =>
      rw [Chain.linkWithin, ih, Chain.branches, List.length_cons]
      simp only [Nat.add_le_add_iff_right]
      split_ifs <;> rfl

namespace Scope

variable (l : Limits)

theorem mapChildren_set {s : Scope} {slot : Nat} {node : ViewNode} {f : ViewNode → ViewNode}
    (hnode : s.children[slot]? = some node) :
    s.mapChildren (·.set slot (f node)) = s.mapChildren (·.modify slot f) := by
  rw [mapChildren_eq_fill, mapChildren_eq_fill (·.modify slot f), List.modify_eq_set_getElem?, hnode]
  rfl

/-- A change to one node that leaves this node as it is changes nothing. -/
theorem mapChildren_modify_self {s : Scope} {slot : Nat} {f : ViewNode → ViewNode}
    (hf : ∀ node, s.children[slot]? = some node → f node = node) :
    s.mapChildren (·.modify slot f) = s := by
  have hsame : s.children.modify slot f = s.children := by
    refine List.ext_getElem? fun i => ?_
    rw [List.getElem?_modify]
    cases hnode : s.children[i]? with
    | none => rfl
    | some node =>
      by_cases hslot : slot = i
      · subst hslot
        simp [hf node hnode]
      · simp [hslot]
  rw [mapChildren_eq_fill, hsame]
  exact fill_children s

theorem linkWithin_eq (slot : Nat) (branch : Branch ViewNode) (s : Scope) :
    s.linkWithin l slot branch =
      l.grant (s.linkNeeds slot) (s.mapChildren (·.modify slot (ViewNode.addAlternate branch))) := by
  unfold linkWithin linkNeeds
  cases hnode : s.children[slot]? with
  | none =>
    rw [mapChildren_modify_self (by simp [hnode])]
    rfl
  | some node =>
    cases node with
    | cond chain =>
      show Except.map _ (chain.linkWithin l.calls (.last branch)) = _
      rw [Chain.linkWithin_eq, ← Limits.grant_calls, Limits.map_grant]
      exact congrArg _ (mapChildren_set (f := ViewNode.addAlternate branch) hnode)
    | _ =>
      rw [mapChildren_modify_self (by rintro _ h; cases hnode.symm.trans h; rfl)]
      rfl

theorem closeTopWithin_eq (s : Scope) : s.closeTopWithin l = l.grant s.closeTopNeeds s.closeTop := by
  rcases s with ⟨m, _ | ⟨⟨depth, line, block⟩, rest⟩⟩
  · rfl
  · cases block with
    | view role nodes =>
      cases role with
      | alternate slot condition => exact linkWithin_eq l slot ⟨condition, nodes, line⟩ ⟨m, rest⟩
      | _ => rfl
    | _ => rfl

theorem closeManyWithin_eq (n : Nat) (s : Scope) :
    closeManyWithin l n s = l.grant (closeManyNeeds n s) (closeMany n s) := by
  induction n generalizing s with
  | zero => rfl
  | succ n ih =>
    rw [closeManyWithin, closeTopWithin_eq]
    exact Limits.bind_grant (ih s.closeTop)

theorem closeToWithin_eq (depth : Int) (s : Scope) :
    s.closeToWithin l depth = l.grant (s.closeToNeeds depth) (s.closeTo depth) :=
  closeManyWithin_eq l _ s

theorem dispatchWithin_eq (s : Scope) (t : Token) :
    s.dispatchWithin l t = l.grant (s.lineNeeds t) (s.dispatch t) := by
  rcases s with ⟨m, _ | ⟨⟨depth, line, block⟩, rest⟩⟩
  · rfl
  · cases block with
    | head lines => exact (Limits.grant_blanks l _ _).symm
    | _ => rfl

theorem stepWithin_eq (s : Scope) (t : Token) :
    s.stepWithin l t = l.grant (s.stepNeeds t) (s.step t).1 := by
  rw [stepWithin, closeToWithin_eq]
  refine Limits.bind_grant ?_
  rw [dispatchWithin_eq, Limits.map_grant, step]
  cases (s.closeTo t.depth).dispatch t <;> rfl

theorem runWithin_eq (s : Scope) (ts : List Token) :
    s.runWithin l ts = l.grant (s.runNeeds ts) (s.run ts) := by
  induction ts generalizing s with
  | nil => rfl
  | cons t ts ih =>
    rw [runWithin, stepWithin_eq]
    exact Limits.bind_grant (ih _)

end Scope

/-- A build within limits is the build without, unless something that it asks for is too much. -/
theorem buildWithin_eq (l : Limits) (ts : List Token) (c : Companions) :
    buildWithin l ts c = l.grant (buildNeeds ts) (buildManifest ts c) := by
  rw [buildWithin, Scope.runWithin_eq, Limits.bind_grant (Scope.closeToWithin_eq l _ _),
    Limits.map_grant]
  rfl

/-- So what a compilation within limits gives, if it gives anything, is that of one without. -/
theorem compileWithin_eq (l : Limits) (settings : Settings) (c : Companions) (file source : Text) :
    compileWithin l settings c file source =
      l.grant (buildNeeds (readTokens settings.lexicon source)) (compile settings c file source) := by
  rw [compileWithin, buildWithin_eq, Limits.map_grant]

/-! ## How much is asked for -/

/-- The line opens an alternate, if it finds a node that it can continue. -/
def Token.isAlternate (t : Token) : Bool :=
  match ViewLine.read t with
  | .alternate _ _ => true
  | _ => false

/-- The block is an alternate, to be linked when it closes. -/
def Frame.isAlternate (f : Frame) : Bool := f.block.alternateSlot?.isSome

theorem Frame.isAlternate_bare (f : Frame) : f.bare.isAlternate = f.isAlternate := by
  obtain ⟨depth, line, block⟩ := f
  cases block with
  | view role nodes => cases role <;> rfl
  | _ => rfl

theorem Frame.isAlternate_skin (f : Frame) : f.skin.isAlternate = f.isAlternate := by
  obtain ⟨depth, line, block⟩ := f
  cases block <;> rfl

/-- The need is one that the lines account for: calls for alternates among them, and blanks for the
depth of one line inside another. -/
def Need.IsOf (ts : List Token) : Need → Prop
  | .calls n => n ≤ ts.countP Token.isAlternate
  | .blanks n => ∃ t ∈ ts, ∃ u ∈ ts, n = Scope.headBlanks t.depth u

namespace Scope

/-- The alternates that are open. -/
def openAlternates (s : Scope) : Nat := s.frames.countP Frame.isAlternate

theorem openAlternates_eq (s : Scope) : s.openAlternates = s.outline.countP Frame.isAlternate := by
  rw [outline, List.countP_map, openAlternates]
  exact List.countP_congr fun f _ => by rw [Function.comp_apply, Frame.isAlternate_bare]

theorem SameTree.openAlternates {s s' : Scope} (h : SameTree s s') :
    s'.openAlternates = s.openAlternates := by
  have hskin : ∀ frames : List Frame,
      frames.countP Frame.isAlternate = (frames.map Frame.skin).countP Frame.isAlternate := by
    intro frames
    rw [List.countP_map]
    exact List.countP_congr fun f _ => by rw [Function.comp_apply, Frame.isAlternate_skin]
  rw [Scope.openAlternates, hskin, h.1, ← hskin]
  rfl

theorem openAlternates_append (node : ViewNode) (s : Scope) :
    (s.append node).openAlternates = s.openAlternates := by
  rw [openAlternates_eq, outline_append, ← openAlternates_eq]

/-- A line opens no alternate unless it is one. -/
theorem openAlternates_dispatch {s s' : Scope} {t : Token} (h : s.dispatch t = .ok s') :
    s'.openAlternates ≤ s.openAlternates + if t.isAlternate then 1 else 0 := by
  have hpush : ∀ (s₀ : Scope) (block : Block), block.alternateSlot? = none →
      (s₀.push t block).openAlternates = s₀.openAlternates := by
    intro s₀ block hb
    exact List.countP_cons_of_neg (by simp [Frame.isAlternate, hb])
  rcases dispatch_cases h with ⟨_, _, hline⟩ | ⟨_, _, hline⟩ | ⟨_, ha⟩
  · obtain ⟨s₀, hs₀, hcases⟩ := nodeLine_ok hline
    have hbefore : s₀.openAlternates = s.openAlternates := hs₀.sameTree.openAlternates
    rcases hcases with ⟨node, _, rfl⟩ | ⟨node, nodes, _, rfl⟩ | ⟨subject, _, rfl⟩ |
      ⟨condition, nodes, hread, _, rfl⟩
    · rw [openAlternates_append, hbefore]
      omega
    · rw [openNode, hpush _ _ rfl, openAlternates_append, hbefore]
      omega
    · rw [openChoice, hpush _ _ rfl, openAlternates_append, hbefore]
      omega
    · have halternate : t.isAlternate := by rw [Token.isAlternate, hread]
      rw [if_pos halternate, ← hbefore]
      exact (List.countP_cons_of_pos rfl).le
  · rw [branchLine_eq] at hline
    split at hline
    · cases hline
      rw [hpush s _ rfl]
      omega
    · cases hline
  · rcases ha with hs | ⟨s₀, block, hs, hb, rfl⟩
    · rw [hs.openAlternates]
      omega
    · have hnone : block.alternateSlot? = none := by
        cases block with
        | view role nodes => cases hb
        | _ => rfl
      rw [hpush s₀ block hnone, hs.openAlternates]
      omega

/-- A block that closes is open no more. -/
theorem openAlternates_closeTop_le (s : Scope) : s.closeTop.openAlternates ≤ s.openAlternates := by
  rw [openAlternates_eq, openAlternates_eq, outline_closeTop]
  exact (List.tail_sublist _).countP_le

theorem openAlternates_closeTop {s : Scope} {f : Frame} {rest : List Frame}
    (hs : s.frames = f :: rest) (hf : f.isAlternate) :
    s.closeTop.openAlternates + 1 = s.openAlternates := by
  rw [openAlternates_eq, openAlternates_eq, outline_closeTop, outline, hs, List.map_cons,
    List.tail_cons]
  exact (List.countP_cons_of_pos (by rwa [Frame.isAlternate_bare])).symm

/-! ### What lines account for -/

theorem Throughout.mono {p p' : List (Option Text) → Prop} {s : Scope} (h : s.Throughout p)
    (hp : ∀ conditions, p conditions → p' conditions) : s.Throughout p' :=
  ⟨fun chain hchain => hp _ (h.view chain hchain),
    fun f hf body hbody chain hchain => hp _ (h.bodies f hf body hbody chain hchain)⟩

theorem Throughout.below {p : List (Option Text) → Prop} {m : Manifest} {f : Frame}
    {below : List Frame} (h : Throughout p ⟨m, f :: below⟩) : Throughout p ⟨m, below⟩ :=
  ⟨h.view, fun g hg => h.bodies g (List.mem_cons_of_mem _ hg)⟩

theorem Throughout.of_getElem? {p : List (Option Text) → Prop} {s : Scope} (h : s.Throughout p)
    {slot : Nat} {chain : Chain ViewNode} (hat : s.children[slot]? = some (.cond chain)) :
    p chain.conditions := by
  have hnodes := (throughout_iff.1 h).children
  have hnode := everyNode_iff.1 hnodes _ (List.mem_of_getElem? hat)
  exact (everyNode_singleton.1 hnode).1 chain rfl

/-- What a scope owes to the tokens `ts`, of which `rest` are still to come. A chain has one branch more
than alternates were linked to it, and those that are open or to come are others. A block is as deep as
the token that opened it. -/
structure Metered (ts rest : List Token) (s : Scope) : Prop where
  chains : ∃ longest, 0 < longest ∧
    longest + s.openAlternates + rest.countP Token.isAlternate ≤ ts.countP Token.isAlternate + 1 ∧
    s.Throughout fun conditions => conditions.length ≤ longest
  depths : ∀ f ∈ s.outline, ∃ t ∈ ts, t.depth = f.depth
  subset : rest ⊆ ts

section

variable {ts rest : List Token} {s : Scope}

theorem metered_start (ts : List Token) : start.Metered ts ts where
  chains := by
    refine ⟨1, Nat.one_pos, ?_, throughout_start _⟩
    rw [openAlternates, start, List.countP_nil]
    omega
  depths := by rintro f ⟨⟩
  subset := List.Subset.refl ts

theorem Metered.closeTop (h : s.Metered ts rest) : s.closeTop.Metered ts rest := by
  refine ⟨?_, fun f hf => h.depths f ?_, h.subset⟩
  · obtain ⟨longest, hpos, hsum, hall⟩ := h.chains
    rcases s with ⟨m, _ | ⟨f, below⟩⟩
    · exact ⟨longest, hpos, hsum, hall⟩
    · by_cases hf : f.isAlternate
      · -- the chain that grows was among those that were not longer than `longest`
        have hopen := openAlternates_closeTop (s := ⟨m, f :: below⟩) rfl hf
        have hlonger := hall.mono fun _ => Nat.le_succ_of_le
        refine ⟨longest + 1, Nat.succ_pos _, by omega, hlonger.closeTop ?_⟩
        rintro depth line slot condition nodes _ ⟨⟩ chain hat -
        rw [sinkOf_frames ⟨m, below⟩] at hat
        rw [List.length_append, List.length_singleton]
        exact Nat.succ_le_succ (hall.below.of_getElem? hat)
      · have hopen := openAlternates_closeTop_le ⟨m, f :: below⟩
        refine ⟨longest, hpos, by omega, hall.closeTop ?_⟩
        rintro depth line slot condition nodes _ ⟨⟩
        exact absurd rfl hf
  · rw [outline_closeTop] at hf
    exact List.mem_of_mem_tail hf

/-- A block that closes asks for no more than it is owed. -/
theorem Metered.closeTopNeeds (h : s.Metered ts rest) : ∀ need ∈ s.closeTopNeeds, need.IsOf ts := by
  obtain ⟨longest, -, hsum, hall⟩ := h.chains
  rcases s with ⟨m, _ | ⟨f, below⟩⟩
  · rintro need ⟨⟩
  · have hopen : f.isAlternate → 0 < openAlternates ⟨m, f :: below⟩ := fun hf =>
      List.countP_pos_iff.2 ⟨f, List.mem_cons_self, hf⟩
    obtain ⟨depth, line, block⟩ := f
    cases block with
    | view role nodes =>
      cases role with
      | alternate slot condition =>
        -- the alternate is open, so it is not among those that the chain has already
        have hopen := hopen rfl
        show ∀ need ∈ linkNeeds slot ⟨m, below⟩, need.IsOf ts
        unfold linkNeeds
        split
        · next chain hat =>
          have hlength := hall.below.of_getElem? hat
          rw [Chain.conditions, List.length_map] at hlength
          rw [List.forall_mem_singleton, Need.IsOf]
          omega
        · rintro need ⟨⟩
      | _ => rintro need ⟨⟩
    | _ => rintro need ⟨⟩

theorem Metered.closeMany (h : s.Metered ts rest) (n : Nat) :
    (closeMany n s).Metered ts rest ∧ ∀ need ∈ closeManyNeeds n s, need.IsOf ts := by
  induction n generalizing s with
  | zero => exact ⟨h, by rintro need ⟨⟩⟩
  | succ n ih =>
    obtain ⟨hclosed, hneeds⟩ := ih h.closeTop
    exact ⟨hclosed, List.forall_mem_append.2 ⟨h.closeTopNeeds, hneeds⟩⟩

theorem Metered.lineNeeds {t : Token} (h : s.Metered ts (t :: rest)) :
    ∀ need ∈ s.lineNeeds t, need.IsOf ts := by
  rcases s with ⟨m, _ | ⟨⟨depth, line, block⟩, below⟩⟩
  · rintro need ⟨⟩
  · cases block with
    | head lines =>
      obtain ⟨u, hu, rfl⟩ := h.depths _ List.mem_cons_self
      exact List.forall_mem_singleton.2 ⟨u, hu, t, h.subset List.mem_cons_self, rfl⟩
    | _ => rintro need ⟨⟩

theorem Metered.skip {t : Token} (h : s.Metered ts (t :: rest)) : s.Metered ts rest := by
  obtain ⟨longest, hpos, hsum, hall⟩ := h.chains
  rw [List.countP_cons] at hsum
  exact ⟨⟨longest, hpos, by omega, hall⟩, h.depths, List.subset_of_cons_subset h.subset⟩

theorem Metered.dispatch {t : Token} {s' : Scope} (h : s.Metered ts (t :: rest))
    (hline : s.dispatch t = .ok s') : s'.Metered ts rest := by
  refine ⟨?_, fun f hf => ?_, h.skip.subset⟩
  · obtain ⟨longest, hpos, hsum, hall⟩ := h.chains
    have hopen := openAlternates_dispatch hline
    rw [List.countP_cons] at hsum
    exact ⟨longest, hpos, by omega, hall.dispatch (fun _ => hpos) hline⟩
  · rcases dispatch_extends hline with heq | ⟨block, heq⟩
    · exact h.depths f (heq ▸ hf)
    · rw [heq] at hf
      rcases List.mem_cons.1 hf with rfl | hf
      · exact ⟨t, h.subset List.mem_cons_self, rfl⟩
      · exact h.depths f hf

theorem Metered.step {t : Token} (h : s.Metered ts (t :: rest)) :
    (s.step t).1.Metered ts rest ∧ ∀ need ∈ s.stepNeeds t, need.IsOf ts := by
  obtain ⟨hclosed, hneeds⟩ := h.closeMany (s.frames.takeWhile (t.depth ≤ ·.depth)).length
  refine ⟨?_, List.forall_mem_append.2 ⟨hneeds, hclosed.lineNeeds⟩⟩
  unfold Scope.step
  split
  · next hline => exact hclosed.dispatch hline
  · exact hclosed.skip

theorem Metered.run (h : s.Metered ts rest) :
    (s.run rest).Metered ts [] ∧ ∀ need ∈ s.runNeeds rest, need.IsOf ts := by
  induction rest generalizing s with
  | nil => exact ⟨h, by rintro need ⟨⟩⟩
  | cons t rest ih =>
    obtain ⟨hstep, hneeds⟩ := h.step
    obtain ⟨hrun, hrest⟩ := ih hstep
    exact ⟨hrun, List.forall_mem_append.2 ⟨hneeds, hrest⟩⟩

end

end Scope

/-- A build asks for nothing that its lines do not account for. -/
theorem isOf_of_mem_buildNeeds {ts : List Token} : ∀ need ∈ buildNeeds ts, need.IsOf ts := by
  obtain ⟨hend, hneeds⟩ := (Scope.metered_start ts).run
  exact List.forall_mem_append.2 ⟨hneeds, (hend.closeMany _).2⟩

/-- A program is built if no more alternates are in it than calls are allowed, and no line is further
inside another than the blanks allow. -/
theorem buildWithin_eq_ok {l : Limits} {ts : List Token} (c : Companions)
    (hcalls : ts.countP Token.isAlternate ≤ l.calls)
    (hblanks : ∀ t ∈ ts, ∀ u ∈ ts, Scope.headBlanks t.depth u ≤ l.blanks) :
    buildWithin l ts c = .ok (buildManifest ts c) := by
  have hnone : (buildNeeds ts).findSome? l.excess? = none := by
    rw [List.findSome?_eq_none_iff]
    intro need hneed
    have hof := isOf_of_mem_buildNeeds need hneed
    cases need with
    | calls n => exact if_pos (Nat.le_trans hof hcalls)
    | blanks n =>
      obtain ⟨t, ht, u, hu, rfl⟩ := hof
      exact if_pos (hblanks t ht u hu)
  rw [buildWithin_eq, Limits.grant, hnone]

/-! ## Long chains -/

/-- A line of control flow right under a view. -/
def branchToken (line : Int) (text : Text) : Token := ⟨line, 4, .control, text, text, 1⟩

/-- A condition with `n` alternates. -/
def longChain (n : Nat) : List Token :=
  ⟨1, 0, .view, "view:".toList, "view:".toList, 0⟩ :: branchToken 2 "if $a:".toList ::
    List.replicate n (branchToken 3 "else if $a:".toList)

namespace Scope

/-- A chain alone in the forest, and an alternate of it that is open. -/
def growing (chain : Chain ViewNode) : Scope :=
  ⟨{ Manifest.empty with view := [.cond chain] },
    [⟨1, 3, .view (.alternate 0 (some "$a".toList)) []⟩, ⟨0, 1, .forest⟩]⟩

theorem step_growing (chain : Chain ViewNode) :
    ((growing chain).step (branchToken 3 "else if $a:".toList)).1 =
      growing (chain.withAlternate (.last ⟨some "$a".toList, [], 3⟩)) := rfl

theorem stepNeeds_growing (chain : Chain ViewNode) :
    (growing chain).stepNeeds (branchToken 3 "else if $a:".toList) =
      [.calls chain.branches.length] := rfl

/-- Each alternate asks for one call more than the one before it, the last when all is closed. -/
theorem needs_growing (chain : Chain ViewNode) (n : Nat) :
    let ts := List.replicate n (branchToken 3 "else if $a:".toList)
    (growing chain).runNeeds ts ++ ((growing chain).run ts).closeToNeeds (-1) =
      (List.range' chain.branches.length (n + 1)).map Need.calls := by
  induction n generalizing chain with
  | zero => rfl
  | succ n ih =>
    have hnext := ih (chain.withAlternate (.last ⟨some "$a".toList, [], 3⟩))
    rw [Chain.branches_withAlternate, List.length_append] at hnext
    dsimp only at hnext ⊢
    rw [List.replicate_succ, runNeeds, run, step_growing, stepNeeds_growing, List.append_assoc, hnext,
      List.range'_succ, List.map_cons]
    rfl

end Scope

theorem buildNeeds_longChain (n : Nat) :
    buildNeeds (longChain n) = (List.range' 1 n).map Need.calls := by
  cases n with
  | zero => rfl
  | succ n => exact Scope.needs_growing (.last ⟨some "$a".toList, [], 2⟩) n

theorem Limits.grant_range' {α : Type} (l : Limits) (n : Nat) (a : α) :
    l.grant ((List.range' 1 n).map Need.calls) a = if n ≤ l.calls then .ok a else .error .calls := by
  induction n with
  | zero => exact (if_pos (Nat.zero_le _)).symm
  | succ n ih =>
    rw [List.range'_1_concat, List.map_append, List.map_singleton, Nat.add_comm 1 n,
      ← bind_grant rfl, ih]
    by_cases hn : n ≤ l.calls
    · rw [if_pos hn]
      exact grant_calls l (n + 1) a
    · rw [if_neg hn, if_neg (by omega)]
      rfl

/-- A condition with many alternates is built as long as the calls for each of them are allowed. So no
limits are enough for all programs. -/
theorem buildWithin_longChain (l : Limits) (n : Nat) (c : Companions) :
    buildWithin l (longChain n) c =
      if n ≤ l.calls then .ok (buildManifest (longChain n) c) else .error .calls := by
  rw [buildWithin_eq, buildNeeds_longChain, Limits.grant_range']

end ComponentLang
