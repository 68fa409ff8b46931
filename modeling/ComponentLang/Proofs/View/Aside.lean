import ComponentLang.Proofs.View.Line

/-!
# Lines that leave the view alone

* `Scope.ReachesView s t` : the token `t`, in the scope `s`, is a line of the view;
* `Scope.SameTree` : two scopes with the same forest and the same open blocks, as far as these
  belong to the view;
* `Scope.Aside t s s'` : from `s` to `s'` nothing happens to the view, except that `t` may open a
  block that holds no nodes of its own;
* `dispatch_cases` : a line belongs to the view, or leaves it alone;
* `sameTree_publish` : so does closing a block that is not of the view.
-/

namespace ComponentLang

/-- The block as far as the view is concerned. -/
def Block.skin : Block → Block
  | .forest => .forest
  | .view role nodes => .view role nodes
  | .choice slot cases fallback => .choice slot cases fallback
  | _ => .style

/-- The frame as far as the view is concerned. -/
def Frame.skin (f : Frame) : Frame := { f with block := f.block.skin }

/-- The block gathers neither nodes nor branches of its own. -/
def Block.isAside : Block → Bool
  | .view _ _ | .choice _ _ _ => false
  | _ => true

namespace Scope

/-- The line belongs to the view: it is of no other use, and the innermost block takes such lines. -/
def ReachesView (s : Scope) (t : Token) : Prop :=
  (s.InView ∨ s.InChoice) ∧ isViewCategory t.category

instance (s : Scope) (t : Token) : Decidable (s.ReachesView t) :=
  inferInstanceAs (Decidable (_ ∧ _))

/-- The forests are equal, and so are the open blocks as far as the view is concerned. -/
def SameTree (s s' : Scope) : Prop :=
  s'.frames.map Frame.skin = s.frames.map Frame.skin ∧ s'.manifest.view = s.manifest.view

theorem SameTree.refl (s : Scope) : SameTree s s := ⟨rfl, rfl⟩

theorem SameView.sameTree {s s' : Scope} (h : SameView s s') : SameTree s s' :=
  ⟨by rw [h.1], h.2⟩

theorem sameTree_mapBody (f : List LogicItem → List LogicItem) (s : Scope) :
    SameTree s (s.mapBody f) := by
  unfold mapBody
  split
  · next h => exact ⟨by simp [h, Frame.skin, Block.skin], rfl⟩
  · exact .refl s

theorem sameTree_publish {f : Frame} (hf : f.block.isAside) (s : Scope) :
    SameTree s (publish f s) := by
  obtain ⟨depth, line, block⟩ := f
  cases block with
  | view role nodes => cases hf
  | choice slot cases fallback => cases hf
  | logic owner items =>
    cases owner with
    | nested slot => exact sameTree_mapBody _ s
    | _ => exact .refl s
  | _ => exact .refl s

/-- Nothing happens to the view, except that the token may open a block aside of it. -/
def Aside (t : Token) (s s' : Scope) : Prop :=
  SameTree s s' ∨ ∃ s₀ block, SameTree s s₀ ∧ block.isAside ∧ s' = s₀.push t block

theorem Aside.push {t : Token} {s s₀ : Scope} {block : Block} (h : SameTree s s₀)
    (hb : block.isAside) : Aside t s (s₀.push t block) := Or.inr ⟨s₀, block, h, hb, rfl⟩

theorem logicLine_aside (s : Scope) (t : Token) : Aside t s (s.logicLine t) := by
  unfold logicLine
  split_ifs
  · exact .push (sameTree_mapBody _ s) rfl
  · exact Or.inl (sameTree_mapBody _ s)
  · exact Or.inl (sameTree_mapBody _ s)

theorem headLine_aside (s : Scope) (t : Token) : Aside t s (s.headLine t) := by
  unfold headLine
  split
  · next h => exact Or.inl ⟨by simp [h, Frame.skin, Block.skin], rfl⟩
  · exact Or.inl (.refl s)

theorem styleLine_aside {s s' : Scope} {t : Token} (h : s.styleLine t = .ok s') :
    Aside t s s' := by
  unfold styleLine at h
  split_ifs at h
  · cases h
    exact .push ⟨rfl, rfl⟩ rfl
  · split at h
    · next hf =>
      cases h
      exact Or.inl ⟨by simp [hf, Frame.skin, Block.skin], rfl⟩
    · cases h

theorem view_declare? {m m' : Manifest} {t : Token} (h : m.declare? t = some m') :
    m'.view = m.view := by
  unfold Manifest.declare? at h
  split at h
  iterate 6
    · obtain ⟨_, _, rfl⟩ := Option.map_eq_some_iff.1 h
      rfl
  · cases h

/-- A line that declares or opens something by its category leaves the view alone. -/
theorem route_aside {s s' : Scope} {t : Token} (h : s.route t = .ok s')
    (hc : ¬ isViewCategory t.category) : Aside t s s' := by
  have hdeclare : s.declare t = .ok s' → Aside t s s' := by
    intro h
    unfold declare at h
    split at h
    · next hm =>
      cases h
      exact Or.inl ⟨rfl, view_declare? hm⟩
    · cases h
  unfold route at h
  split at h
  iterate 6 exact hdeclare h
  · unfold openFunction at h
    split at h
    · cases h
    · cases h
      exact .push ⟨rfl, rfl⟩ rfl
  · cases h
    exact .push ⟨rfl, rfl⟩ rfl
  · unfold openWatcher at h
    split at h
    · cases h
    · cases h
      exact .push ⟨rfl, rfl⟩ rfl
  · cases h
    exact .push (.refl s) rfl
  · cases h
    exact .push (.refl s) rfl
  · cases h
    exact .push (.refl s) rfl
  · unfold openPersona at h
    split at h
    · cases h
    · cases h
      exact .push ⟨rfl, rfl⟩ rfl
  · cases h
    exact .push (.refl s) rfl
  all_goals
    next hcat =>
    rw [hcat] at hc
    exact absurd rfl hc

/-- A line of the view goes among the nodes or the branches of the innermost block; any other line
leaves the view alone. -/
theorem dispatch_cases {s s' : Scope} {t : Token} (h : s.dispatch t = .ok s') :
    (s.ReachesView t ∧ s.InView ∧ s.nodeLine t = .ok s') ∨
    (s.ReachesView t ∧ s.InChoice ∧ s.branchLine t = .ok s') ∨
    (¬ s.ReachesView t ∧ Aside t s s') := by
  by_cases hr : s.ReachesView t
  · rcases hr.1 with hs | hs
    · rw [dispatch_inView hs hr.2] at h
      exact Or.inl ⟨hr, hs, h⟩
    · rw [dispatch_inChoice hs hr.2] at h
      exact Or.inr (Or.inl ⟨hr, hs, h⟩)
  · refine Or.inr (Or.inr ⟨hr, ?_⟩)
    unfold dispatch at h
    split at h
    · cases h
      exact logicLine_aside s t
    · cases h
      exact logicLine_aside s t
    · cases h
      exact headLine_aside s t
    · next hmount hlogic hhead =>
      by_cases hc : isViewCategory t.category
      · rw [route_of_isViewCategory hc] at h
        unfold place at h
        split at h
        · exact styleLine_aside h
        · exact styleLine_aside h
        · next htop => exact absurd ⟨Or.inr (by simp [InChoice, htop, Block.isChoice]), hc⟩ hr
        · cases h
        · next hstyle hrule hchoice hsuite =>
          -- of all blocks, those that hold nodes are left
          refine absurd ⟨Or.inl ?_, hc⟩ hr
          unfold InView
          cases htop : s.top? with
          | none => rfl
          | some block => cases block <;> simp_all [Block.holdsNodes]
      · exact route_aside h hc

end Scope

end ComponentLang
