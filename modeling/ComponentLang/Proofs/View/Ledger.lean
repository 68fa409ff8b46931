import ComponentLang.Proofs.View.Placeholder

/-!
# What the view holds while it is read

The entries of an unfinished view are spread over the forest of the manifest and the blocks that
are still open. A place is told by lines alone, so that it is known before the blocks close.

* `path` : the lines of the blocks of the view that are open around a line;
* `Scope.live` : the items of the forest and of all open blocks, each at the place where it will
  stand in the end;
* `Scope.item?` : the item that a line leaves behind;
* `Scope.lostTop` : the items that are thrown away when the innermost block closes. There are some
  only where a choice has a branch without a condition and gets another one;
* `live_closeTop` : closing a block throws these away and keeps all others;
* `live_dispatch` : a line adds its item and keeps all others.
-/

namespace ComponentLang

open Entry (items itemsAll itemsAll_append)

/-! ## Filling in a node -/

/-- What a change to one node adds to its items, it adds to those of the list. -/
theorem itemsAll_modify {a : List Int} {holder : Option Int} {extra : List Item}
    {f : ViewNode → ViewNode} {node : ViewNode}
    (h : (itemsAll a ((f node).entries false holder)).Perm
      (extra ++ itemsAll a (node.entries false holder))) {nodes : List ViewNode} {slot : Nat}
    (hslot : nodes[slot]? = some node) :
    (itemsAll a (entriesAll false holder (nodes.modify slot f))).Perm
      (extra ++ itemsAll a (entriesAll false holder nodes)) := by
  induction nodes generalizing slot with
  | nil => cases hslot
  | cons first nodes ih =>
    cases slot with
    | zero =>
      cases hslot
      rw [List.modify_zero_cons, entriesAll, entriesAll, itemsAll_append, itemsAll_append,
        ← List.append_assoc]
      exact h.append_right _
    | succ slot =>
      rw [List.modify_succ_cons, entriesAll, entriesAll, itemsAll_append, itemsAll_append]
      exact ((ih hslot).append_left _).trans (List.perm_append_comm_assoc _ _ _)

/-- An entry under which nothing stood gets what stands under it. -/
theorem items_fill (a : List Int) (l : Int) (inner rest : List Entry) :
    (itemsAll a (.mk l false inner :: rest)).Perm
      (itemsAll (l :: a) inner ++ itemsAll a (.mk l false [] :: rest)) := by
  rw [itemsAll, itemsAll, items, items]
  exact List.perm_middle.symm

theorem itemsAll_setChildren {l : Int} {node : ViewNode} (h : node.Awaits l) (a : List Int)
    (holder : Option Int) (nodes : List ViewNode) :
    (itemsAll a ((node.setChildren nodes).entries false holder)).Perm
      (itemsAll (l :: a) (entriesAll false (some l) nodes) ++
        itemsAll a (node.entries false holder)) := by
  cases node with
  | element tag attributes ref children l' =>
    obtain ⟨rfl, hnone⟩ := h
    rw [ViewNode.setChildren, ViewNode.entries, ViewNode.entries, hnone]
    exact items_fill a l' _ []
  | fragment children l' =>
    obtain ⟨rfl, hnone⟩ := h
    rw [ViewNode.setChildren, ViewNode.entries, ViewNode.entries, hnone]
    exact items_fill a l' _ []
  | each list item children l' =>
    obtain ⟨rfl, hnone⟩ := h
    rw [ViewNode.setChildren, ViewNode.entries, ViewNode.entries, hnone]
    exact items_fill a l' _ []
  | cond chain =>
    rw [ViewNode.setChildren, ViewNode.entries, ViewNode.entries]
    cases chain with
    | last b =>
      obtain ⟨rfl, hnone⟩ := h
      dsimp only [Chain.first] at hnone ⊢
      rw [Chain.mapFirst, chainEntries, chainEntries, Branch.entry, Branch.entry, hnone]
      exact items_fill a _ _ []
    | link b rest =>
      obtain ⟨rfl, hnone⟩ := h
      dsimp only [Chain.first] at hnone ⊢
      rw [Chain.mapFirst, chainEntries, chainEntries, Branch.entry, Branch.entry, hnone]
      exact items_fill a _ _ _
  | _ => cases h

theorem itemsAll_addAlternate (chain : Chain ViewNode) (a : List Int) (holder : Option Int)
    (branch : Branch ViewNode) :
    (itemsAll a (((ViewNode.cond chain).addAlternate branch).entries false holder)).Perm
      ((branch.entry false false).items a ++
        itemsAll a ((ViewNode.cond chain).entries false holder)) := by
  rw [ViewNode.addAlternate, ViewNode.entries, ViewNode.entries, chainEntries_withAlternate,
    itemsAll_append, chainEntries, itemsAll, itemsAll, List.append_nil]
  exact List.perm_append_comm

theorem itemsAll_setBranches (subject : Text) (l : Int) (a : List Int) (holder : Option Int)
    (cases : List (Branch ViewNode)) (fallback : Option (Branch ViewNode)) :
    (itemsAll a (((ViewNode.choice subject [] none l).setBranches cases fallback).entries false
      holder)).Perm
      (itemsAll (l :: a) (branchEntries false cases ++ fallbackEntries false fallback) ++
        itemsAll a ((ViewNode.choice subject [] none l).entries false holder)) := by
  rw [ViewNode.setBranches, ViewNode.entries, ViewNode.entries]
  exact items_fill a l _ []

/-! ## Items of open blocks -/

/-- The lines of the blocks of the view that are open, innermost first, up to a block that gathers
neither nodes nor branches of its own. -/
def path : List Frame → List Int
  | [] => []
  | f :: rest => if f.block.isAside then [] else f.line :: path rest

/-- The item of a block that has no node yet. -/
def ViewRole.items (l : Int) (p : List Int) : ViewRole → List Item
  | .node _ => []
  | .alternate _ _ => [⟨l, p, false⟩]
  | .branch condition => [⟨l, p, condition.isNone⟩]

/-- The items that a block at the place `p` has gathered. -/
def Frame.items (p : List Int) (f : Frame) : List Item :=
  match f.block with
  | .view role nodes =>
    role.items f.line p ++ itemsAll (f.line :: p) (entriesAll false (some f.line) nodes)
  | .choice _ cases fallback =>
    itemsAll (f.line :: p) (branchEntries false cases ++ fallbackEntries false fallback)
  | _ => []

/-- The items that the open blocks have gathered. -/
def pending : List Frame → List Item
  | [] => []
  | f :: rest => f.items (path rest) ++ pending rest

/-- The items of a forest. -/
def forestItems (nodes : List ViewNode) : List Item := itemsAll [] (entriesAll false none nodes)

namespace Scope

/-- The items of the forest and of the open blocks. -/
def live (s : Scope) : List Item := forestItems s.manifest.view ++ pending s.frames

/-- The item that a line leaves in the view, if it finds a place there. -/
def item? (s : Scope) (t : Token) : Option Item :=
  if s.ReachesView t then
    match s.dispatch t with
    | .ok _ => some ⟨t.line, path s.frames, decide s.InChoice && BranchLine.read? t == some none⟩
    | .error _ => none
  else none

/-- The items that are thrown away when the innermost block closes. -/
def lostTop (s : Scope) : List Item :=
  match s.frames with
  | ⟨_, _, .view (.branch none) _⟩ :: ⟨_, l, .choice _ _ fallback⟩ :: rest =>
    itemsAll (l :: path rest) (fallbackEntries false fallback)
  | _ => []

end Scope

theorem items_view (p : List Int) (depth l : Int) (role : ViewRole) (nodes : List ViewNode) :
    Frame.items p ⟨depth, l, .view role nodes⟩ =
      role.items l p ++ itemsAll (l :: p) (entriesAll false (some l) nodes) := rfl

theorem isAside_skin (block : Block) : block.skin.isAside = block.isAside := by
  cases block <;> rfl

theorem path_skin (frames : List Frame) : path (frames.map Frame.skin) = path frames := by
  induction frames with
  | nil => rfl
  | cons f rest ih => rw [List.map_cons, path, path, ih, Frame.skin, isAside_skin]

theorem items_skin (p : List Int) (f : Frame) : f.skin.items p = f.items p := by
  obtain ⟨depth, line, block⟩ := f
  cases block <;> rfl

theorem pending_skin (frames : List Frame) : pending (frames.map Frame.skin) = pending frames := by
  induction frames with
  | nil => rfl
  | cons f rest ih => rw [List.map_cons, pending, pending, ih, path_skin, items_skin]

namespace Scope

theorem SameTree.path {s s' : Scope} (h : SameTree s s') : path s'.frames = path s.frames := by
  rw [← path_skin, h.1, path_skin]

theorem SameTree.live {s s' : Scope} (h : SameTree s s') : s'.live = s.live := by
  rw [Scope.live, Scope.live, h.2, ← pending_skin, h.1, pending_skin]

theorem live_push (s : Scope) (t : Token) (block : Block) :
    (s.push t block).live.Perm
      (Frame.items (ComponentLang.path s.frames) ⟨t.depth, t.line, block⟩ ++ s.live) :=
  List.perm_append_comm_assoc _ _ _

theorem live_aside {t : Token} {s s' : Scope} (h : Aside t s s') : s'.live.Perm s.live := by
  rcases h with h | ⟨s₀, block, h, hb, rfl⟩
  · rw [h.live]
  · refine (live_push s₀ t block).trans ?_
    rw [h.live]
    cases block with
    | view role nodes => cases hb
    | choice slot cases fallback => cases hb
    | _ => exact .refl _

/-! ## Changes to the innermost nodes -/

/-- The items of the nodes among which a line of the view stands. -/
def nearItems (s : Scope) (nodes : List ViewNode) : List Item :=
  itemsAll (path s.frames) (entriesAll false (path s.frames).head? nodes)

theorem perm_between {near near' extra : List Item} (h : near'.Perm (extra ++ near))
    (left right : List Item) :
    (left ++ (near' ++ right)).Perm (extra ++ (left ++ (near ++ right))) := by
  have hright := (h.append_right right).append_left left
  rw [List.append_assoc] at hright
  exact hright.trans (List.perm_append_comm_assoc _ _ _)

theorem perm_exchange {near near' extra : List Item} (lost : List Item)
    (h : (extra ++ near).Perm (lost ++ near')) (left right : List Item) :
    (extra ++ (left ++ (near ++ right))).Perm (lost ++ (left ++ (near' ++ right))) :=
  (perm_between (.refl _) left right).symm.trans (perm_between h left right)

/-- What a change adds to the innermost nodes, it adds to the whole. -/
theorem live_mapChildren {s : Scope} (hv : s.InView) {f : List ViewNode → List ViewNode}
    {extra : List Item}
    (h : (s.nearItems (f s.children)).Perm (extra ++ s.nearItems s.children)) :
    (s.mapChildren f).live.Perm (extra ++ s.live) := by
  rcases s with ⟨m, _ | ⟨⟨depth, line, block⟩, rest⟩⟩
  · exact perm_between h [] _
  · cases block with
    | forest => exact perm_between h [] _
    | view role nodes =>
      -- the nodes stand between the items of the forest and those of the blocks further out
      have hmid := perm_between h (forestItems m.view ++ role.items line (path rest)) (pending rest)
      rw [List.append_assoc, List.append_assoc] at hmid
      rw [live, live, mapChildren, pending, pending, Frame.items, Frame.items, List.append_assoc,
        List.append_assoc]
      exact hmid
    | _ => cases hv

theorem live_modify {s : Scope} (hv : s.InView) {f : ViewNode → ViewNode} {slot : Nat}
    {node : ViewNode} (hslot : s.children[slot]? = some node) {extra : List Item}
    (h : (itemsAll (path s.frames) ((f node).entries false (path s.frames).head?)).Perm
      (extra ++ itemsAll (path s.frames) (node.entries false (path s.frames).head?))) :
    (s.mapChildren fun nodes => nodes.modify slot f).live.Perm (extra ++ s.live) :=
  live_mapChildren hv (itemsAll_modify h hslot)

theorem live_append {s : Scope} (hv : s.InView) {node : ViewNode} {l : Int}
    (h : node.entries false (path s.frames).head? = [.mk l false []]) :
    (s.append node).live.Perm (⟨l, path s.frames, false⟩ :: s.live) := by
  have hadd : (s.nearItems (s.children ++ [node])).Perm
      ([⟨l, path s.frames, false⟩] ++ s.nearItems s.children) := by
    rw [nearItems, entriesAll_append, itemsAll_append, entriesAll, h]
    exact List.perm_append_comm
  exact live_mapChildren (f := (· ++ [node])) hv hadd

/-! ## Closing a block -/

theorem items_entry (isFallback : Bool) (condition : Option Text) (nodes : List ViewNode) (l : Int)
    (p : List Int) :
    (Branch.entry false isFallback ⟨condition, nodes, l⟩).items p =
      ⟨l, p, isFallback⟩ :: itemsAll (l :: p) (entriesAll false (some l) nodes) := by
  rw [Branch.entry, items]

/-- A further branch with a condition joins the others. -/
theorem itemsAll_addCase (p : List Int) (cases : List (Branch ViewNode)) (b : Branch ViewNode)
    (fallback : Option (Branch ViewNode)) :
    ((b.entry false false).items p ++
      itemsAll p (branchEntries false cases ++ fallbackEntries false fallback)).Perm
      (itemsAll p (branchEntries false (cases ++ [b]) ++ fallbackEntries false fallback)) := by
  rw [branchEntries_append, List.append_assoc, itemsAll_append, itemsAll_append, itemsAll_append,
    branchEntries, itemsAll]
  simp only [branchEntries, itemsAll, List.append_nil]
  exact List.perm_append_comm_assoc _ _ _

/-- A branch without a condition takes the place of the one before. -/
theorem itemsAll_setFallback (p : List Int) (cases : List (Branch ViewNode)) (b : Branch ViewNode)
    (fallback : Option (Branch ViewNode)) :
    ((b.entry false true).items p ++
      itemsAll p (branchEntries false cases ++ fallbackEntries false fallback)).Perm
      (itemsAll p (fallbackEntries false fallback) ++
        itemsAll p (branchEntries false cases ++ fallbackEntries false (some b))) := by
  rw [itemsAll_append, itemsAll_append, fallbackEntries, itemsAll, itemsAll, List.append_nil]
  refine List.perm_append_comm.trans ?_
  rw [List.append_assoc]
  exact List.perm_append_comm_assoc _ _ _

theorem inView_of_takesNodes {m : Manifest} {frames : List Frame} (h : takesNodes frames) :
    InView ⟨m, frames⟩ := (takesNodes_frames _).1 h

theorem children_eq_sinkOf (m : Manifest) (frames : List Frame) :
    Scope.children ⟨m, frames⟩ = sinkOf m.view frames := (sinkOf_frames _).symm

/-- Closing a block of the view throws away the branch that it replaces, and keeps all else. -/
theorem live_closeTop {s : Scope} (h : s.Sound) : s.live.Perm (s.lostTop ++ s.closeTop.live) := by
  rcases s with ⟨m, _ | ⟨⟨depth, line, block⟩, rest⟩⟩
  · exact .refl _
  · have hp := h.1
    have hopen : (live ⟨m, ⟨depth, line, block⟩ :: rest⟩).Perm
        (Frame.items (path rest) ⟨depth, line, block⟩ ++ live ⟨m, rest⟩) :=
      List.perm_append_comm_assoc _ _ _
    refine hopen.trans ?_
    cases block with
    | view role nodes =>
      cases role with
      | node slot =>
        obtain ⟨htakes, ⟨node, hnode, hawaits⟩, _⟩ := hp
        rw [← children_eq_sinkOf] at hnode
        exact (live_modify (inView_of_takesNodes htakes) hnode
          (itemsAll_setChildren hawaits _ _ nodes)).symm
      | alternate slot condition =>
        obtain ⟨htakes, chain, hnode⟩ := hp
        rw [← children_eq_sinkOf] at hnode
        have hadd := live_modify (inView_of_takesNodes htakes) hnode
          (itemsAll_addAlternate chain _ _ ⟨condition, nodes, line⟩)
        rw [items_entry] at hadd
        exact hadd.symm
      | branch condition =>
        rcases rest with _ | ⟨⟨depth', l, block⟩, rest⟩
        · cases hp
        · cases block with
          | choice slot cases fallback =>
            cases condition with
            | none =>
              have hset := itemsAll_setFallback (l :: path rest) cases ⟨none, nodes, line⟩ fallback
              rw [items_entry] at hset
              exact perm_exchange _ hset (forestItems m.view) (pending rest)
            | some condition =>
              have hadd := itemsAll_addCase (l :: path rest) cases ⟨some condition, nodes, line⟩ fallback
              rw [items_entry] at hadd
              exact perm_exchange [] hadd (forestItems m.view) (pending rest)
          | _ => cases hp
    | choice slot cases fallback =>
      obtain ⟨htakes, ⟨subject, hnode⟩, _⟩ := hp
      rw [← children_eq_sinkOf] at hnode
      exact (live_modify (inView_of_takesNodes htakes) hnode
        (itemsAll_setBranches subject line _ _ cases fallback)).symm
    | _ =>
      rw [closeTop, (sameTree_publish rfl _).live]
      exact .refl _

/-! ## Lines of the view -/

theorem live_nodeLine {s s' : Scope} {t : Token} (hv : s.InView)
    (hne : (path s.frames).head? ≠ some t.line) (hline : s.nodeLine t = .ok s') :
    s'.live.Perm (⟨t.line, path s.frames, false⟩ :: s.live) := by
  obtain ⟨s₀, hs₀, hcases⟩ := nodeLine_ok hline
  have hv₀ : s₀.InView := hv.sameView hs₀
  rw [← hs₀.sameTree.live, ← hs₀.sameTree.path]
  rw [← hs₀.sameTree.path] at hne
  rcases hcases with ⟨node, hread, rfl⟩ | ⟨node, nodes, hread, rfl⟩ | ⟨subject, hread, rfl⟩ |
    ⟨condition, nodes, hread, hlast, rfl⟩
  · exact live_append hv₀ (read_leaf hread hne)
  · obtain ⟨_, hnone, hentries⟩ := read_header hread
    refine (live_push _ t _).trans ?_
    rw [items_view, hnone]
    exact live_append hv₀ (hentries _)
  · exact (live_push _ t _).trans (live_append hv₀ rfl)
  · refine (live_push s₀ t _).trans ?_
    rw [items_view, read_alternate hread]
    exact .refl _

theorem live_branchLine {s s' : Scope} {t : Token} (hline : s.branchLine t = .ok s') :
    s'.live.Perm (⟨t.line, path s.frames, BranchLine.read? t == some none⟩ :: s.live) := by
  rw [branchLine_eq] at hline
  split at hline
  · next condition hread =>
    cases hline
    refine (live_push s t _).trans ?_
    have hfallback : (some condition == some none) = condition.isNone := by
      cases condition <;> rfl
    rw [items_view, entriesAll_headerNodes, hread, hfallback]
    exact .refl _
  · cases hline

theorem not_inChoice_of_inView {s : Scope} (h : s.InView) : ¬ s.InChoice := by
  unfold InView at h
  unfold InChoice
  generalize s.top? = top at h ⊢
  cases top with
  | none => exact Bool.false_ne_true
  | some block =>
    cases block with
    | forest => exact Bool.false_ne_true
    | view role nodes => exact Bool.false_ne_true
    | _ => cases h

/-- A line adds its item, if it leaves one, and keeps all others. -/
theorem live_dispatch {s s' : Scope} {t : Token} (hne : (path s.frames).head? ≠ some t.line)
    (hline : s.dispatch t = .ok s') : s'.live.Perm ((s.item? t).toList ++ s.live) := by
  rcases dispatch_cases hline with ⟨hr, hv, h⟩ | ⟨hr, hc, h⟩ | ⟨hr, ha⟩
  · have hnode := live_nodeLine hv hne h
    simpa [item?, hr, hline, not_inChoice_of_inView hv] using hnode
  · have hbranch := live_branchLine h
    simpa [item?, hr, hline, hc] using hbranch
  · rw [item?, if_neg hr]
    exact live_aside ha

end Scope

end ComponentLang
