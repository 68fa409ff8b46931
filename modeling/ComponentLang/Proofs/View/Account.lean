import ComponentLang.Proofs.View.Ledger
import Mathlib.Data.List.Chain

/-!
# Accounting for the lines of a view

* `itemAt? ts i` : the item that the token at `i` leaves behind;
* `Superseded ts j` : the token at `j` opens a branch without a condition, and a later token opens
  another one of the same choice;
* `Discarded ts i` : the token at `i` is such a token, or stands under one;
* `Ordered` : the branch that a choice has is older than the block that is open under the choice;
* `Account` : what the view holds and what was thrown away are together what the tokens have left,
  and nothing was thrown away that is not doomed by a later branch;
* `Account.closeTop`, `Account.dispatch`, `account` : this holds all the way.
-/

namespace ComponentLang

open Entry (items itemsAll)

/-! ## Items by position -/

/-- The line of the token at a position. -/
def lineAt (ts : List Token) (i : Nat) : Option Int := ts[i]?.map Token.line

/-- The item that the token at a position leaves in the view. -/
def itemAt? (ts : List Token) (i : Nat) : Option Item := ts[i]?.bind (Scope.around ts i).item?

/-- The items that the first tokens leave, so many of them. -/
def itemsBefore (ts : List Token) (i : Nat) : List Item := (List.range i).filterMap (itemAt? ts)

/-- The token at `j` opens a branch without a condition, and so does a later token at the same
place. -/
def Superseded (ts : List Token) (j : Nat) : Prop :=
  ∃ e ∈ itemAt? ts j, ∃ k < ts.length, j < k ∧ ∃ e' ∈ itemAt? ts k,
    e.isFallback ∧ e'.isFallback ∧ e'.around = e.around

instance (ts : List Token) (j : Nat) : Decidable (Superseded ts j) :=
  inferInstanceAs (Decidable (∃ e ∈ itemAt? ts j, _))

/-- The item is that of a superseded branch, or stands under one. -/
def Item.Doomed (ts : List Token) (e : Item) : Prop :=
  ∃ j < ts.length, Superseded ts j ∧ ∃ l ∈ lineAt ts j, l ∈ e.line :: e.around

instance (ts : List Token) (e : Item) : Decidable (e.Doomed ts) :=
  inferInstanceAs (Decidable (∃ j < ts.length, _))

/-- The token opens a superseded branch, or stands under one. -/
def Discarded (ts : List Token) (i : Nat) : Prop := ∃ e ∈ itemAt? ts i, e.Doomed ts

instance (ts : List Token) (i : Nat) : Decidable (Discarded ts i) :=
  inferInstanceAs (Decidable (∃ e ∈ itemAt? ts i, _))

theorem line_of_item? {s : Scope} {t : Token} {e : Item} (h : s.item? t = some e) :
    e.line = t.line := by
  unfold Scope.item? at h
  split_ifs at h
  split at h
  · cases h
    rfl
  · cases h

theorem exists_item?_of_ok {s s' : Scope} {t : Token} (hr : s.ReachesView t)
    (h : s.dispatch t = .ok s') : ∃ e, s.item? t = some e := by
  unfold Scope.item?
  rw [if_pos hr, h]
  exact ⟨_, rfl⟩

theorem lineAt_of_itemAt? {ts : List Token} {i : Nat} {e : Item} (h : itemAt? ts i = some e) :
    lineAt ts i = some e.line := by
  obtain ⟨t, ht, h⟩ := Option.bind_eq_some_iff.1 h
  rw [lineAt, ht, line_of_item? h]
  rfl

theorem lt_of_lineAt {ts : List Token} {i : Nat} {l : Int} (h : lineAt ts i = some l) :
    i < ts.length := by
  obtain ⟨t, ht, _⟩ := Option.map_eq_some_iff.1 h
  exact (List.getElem?_eq_some_iff.1 ht).1

theorem Superseded.exists_item {ts : List Token} {j : Nat} (h : Superseded ts j) {l : Int}
    (hl : lineAt ts j = some l) : ∃ e, itemAt? ts j = some e ∧ e.line = l := by
  obtain ⟨e, he, _⟩ := h
  exact ⟨e, he, Option.some.inj ((lineAt_of_itemAt? he).symm.trans hl)⟩

/-- A line number tells the position. -/
theorem lineAt_inj {ts : List Token} (hlines : (ts.map Token.line).Nodup) {i j : Nat} {l : Int}
    (hi : lineAt ts i = some l) (hj : lineAt ts j = some l) : i = j := by
  rw [lineAt, ← List.getElem?_map] at hi hj
  have hlt := (List.getElem?_eq_some_iff.1 hi).1
  exact (List.getElem?_inj hlt hlines).1 (hi.trans hj.symm)

theorem mem_itemsBefore {ts : List Token} {i : Nat} {e : Item} :
    e ∈ itemsBefore ts i ↔ ∃ j < i, itemAt? ts j = some e := by
  simp [itemsBefore, List.mem_filterMap]

theorem itemsBefore_succ (ts : List Token) (i : Nat) :
    itemsBefore ts (i + 1) = itemsBefore ts i ++ (itemAt? ts i).toList := filterMap_range_succ _ _

theorem nodup_lines_itemsBefore {ts : List Token} (hlines : (ts.map Token.line).Nodup) (i : Nat) :
    ((itemsBefore ts i).map Item.line).Nodup := by
  rw [itemsBefore, List.map_filterMap]
  refine List.nodup_range.filterMap fun j k l hj hk => ?_
  obtain ⟨e, he, rfl⟩ := Option.map_eq_some_iff.1 hj
  obtain ⟨e', he', heq⟩ := Option.map_eq_some_iff.1 hk
  have hk := lineAt_of_itemAt? he'
  rw [heq] at hk
  exact lineAt_inj hlines (lineAt_of_itemAt? he) hk

/-- The items of two positions are equal if their lines are. -/
theorem itemAt?_inj {ts : List Token} (hlines : (ts.map Token.line).Nodup) {i j : Nat}
    {e e' : Item} (he : itemAt? ts i = some e) (he' : itemAt? ts j = some e')
    (h : e.line = e'.line) : i = j ∧ e = e' := by
  have hi := lineAt_of_itemAt? he
  rw [h] at hi
  have hij := lineAt_inj hlines hi (lineAt_of_itemAt? he')
  subst hij
  exact ⟨rfl, Option.some.inj (he.symm.trans he')⟩

/-! ## Branches are superseded in order -/

/-- The first line stands before the second. -/
def Earlier (ts : List Token) (l l' : Int) : Prop :=
  ∃ j k, j < k ∧ lineAt ts j = some l ∧ lineAt ts k = some l'

/-- The line of a block, and that of the branch without a condition in it. -/
def Frame.mark (f : Frame) : Int × Option Int :=
  (f.line, match f.block with
    | .choice _ _ fallback => fallback.map Branch.line
    | _ => none)

/-- Above a choice that has a branch without a condition, a later line has opened a block. -/
def Ordered (ts : List Token) (marks : List (Int × Option Int)) : Prop :=
  marks.IsChain fun inner outer => ∀ l ∈ outer.2, Earlier ts l inner.1

namespace Scope

/-- The marks of the open blocks. -/
def marks (s : Scope) : List (Int × Option Int) := s.frames.map Frame.mark

theorem mark_skin (f : Frame) : f.skin.mark = f.mark := by
  obtain ⟨depth, line, block⟩ := f
  cases block <;> rfl

theorem SameTree.marks {s s' : Scope} (h : SameTree s s') : s'.marks = s.marks := by
  have hmark : ∀ frames : List Frame, (frames.map Frame.skin).map Frame.mark =
      frames.map Frame.mark := by
    intro frames
    rw [List.map_map]
    exact List.map_congr_left fun f _ => mark_skin f
  rw [Scope.marks, Scope.marks, ← hmark, h.1, hmark]

theorem marks_mapChildren (f : List ViewNode → List ViewNode) (s : Scope) :
    (s.mapChildren f).marks = s.marks := by
  rcases s with ⟨m, _ | ⟨⟨depth, line, block⟩, rest⟩⟩
  · rfl
  · cases block <;> rfl

/-- A line opens one block at most, and leaves the others as they are. -/
theorem marks_dispatch {s s' : Scope} {t : Token} (h : s.dispatch t = .ok s') :
    s'.marks = s.marks ∨ ∃ fallback, s'.marks = (t.line, fallback) :: s.marks := by
  rcases dispatch_cases h with ⟨_, _, h⟩ | ⟨_, _, h⟩ | ⟨_, ha⟩
  · obtain ⟨s₀, hs₀, hcases⟩ := nodeLine_ok h
    rw [← hs₀.sameTree.marks]
    rcases hcases with ⟨node, _, rfl⟩ | ⟨node, nodes, _, rfl⟩ | ⟨subject, _, rfl⟩ |
      ⟨condition, nodes, _, _, rfl⟩
    · exact Or.inl (marks_mapChildren _ _)
    · exact Or.inr ⟨none, congrArg _ (marks_mapChildren _ _)⟩
    · exact Or.inr ⟨none, congrArg _ (marks_mapChildren _ _)⟩
    · exact Or.inr ⟨none, rfl⟩
  · rw [branchLine_eq] at h
    split at h
    · cases h
      exact Or.inr ⟨none, rfl⟩
    · cases h
  · rcases ha with ha | ⟨s₀, block, ha, _, rfl⟩
    · exact Or.inl ha.marks
    · rw [← ha.marks]
      exact Or.inr ⟨_, rfl⟩

/-- A block that closes changes at most which branch without a condition the next one has. -/
theorem marks_publish (f : Frame) (s : Scope) :
    (publish f s).marks = s.marks ∨ ∃ l fallback fallback' rest,
      s.marks = (l, fallback) :: rest ∧ (publish f s).marks = (l, fallback') :: rest := by
  obtain ⟨depth, line, block⟩ := f
  cases block with
  | view role nodes =>
    cases role with
    | node slot => exact Or.inl (marks_mapChildren _ s)
    | alternate slot condition => exact Or.inl (marks_mapChildren _ s)
    | branch condition =>
      rcases s with ⟨m, _ | ⟨⟨depth', l, block⟩, rest⟩⟩
      · exact Or.inl rfl
      · cases block with
        | choice slot cases fallback =>
          cases condition <;> exact Or.inr ⟨l, _, _, rest.map Frame.mark, rfl, rfl⟩
        | _ => exact Or.inl rfl
  | choice slot cases fallback => exact Or.inl (marks_mapChildren _ s)
  | _ => exact Or.inl (sameTree_publish rfl s).marks

end Scope

/-- The mark of the innermost block counts only for its line. -/
theorem Ordered.head {ts : List Token} {l : Int} {fallback fallback' : Option Int}
    {rest : List (Int × Option Int)} (h : Ordered ts ((l, fallback) :: rest)) :
    Ordered ts ((l, fallback') :: rest) := by
  cases rest with
  | nil => exact List.isChain_singleton _
  | cons mark rest =>
    obtain ⟨hhead, htail⟩ := List.isChain_cons_cons.1 h
    exact List.isChain_cons_cons.2 ⟨hhead, htail⟩

theorem Ordered.tail {ts : List Token} {marks : List (Int × Option Int)} (h : Ordered ts marks) :
    Ordered ts marks.tail := List.IsChain.tail h

theorem Ordered.closeTop {ts : List Token} {s : Scope} (h : Ordered ts s.marks) :
    Ordered ts s.closeTop.marks := by
  rcases s with ⟨m, _ | ⟨f, rest⟩⟩
  · exact h
  · have hrest : Ordered ts (Scope.marks ⟨m, rest⟩) := h.tail
    rcases Scope.marks_publish f ⟨m, rest⟩ with heq | ⟨l, fallback, fallback', marks, heq, heq'⟩
    · rw [Scope.closeTop, heq]
      exact hrest
    · rw [heq] at hrest
      rw [Scope.closeTop, heq']
      exact hrest.head

theorem Ordered.dispatch {ts : List Token} {s s' : Scope} {t : Token} (h : Ordered ts s.marks)
    (hline : s.dispatch t = .ok s')
    (htop : ∀ mark ∈ s.marks.head?, ∀ l ∈ mark.2, Earlier ts l t.line) : Ordered ts s'.marks := by
  rcases Scope.marks_dispatch hline with heq | ⟨fallback, heq⟩
  · rwa [heq]
  · rw [heq]
    cases hm : s.marks with
    | nil => exact List.isChain_singleton _
    | cons mark rest =>
      rw [hm] at h htop
      exact List.isChain_cons_cons.2 ⟨htop mark rfl, h⟩

/-! ## The account -/

/-- After `i` tokens and perhaps some more blocks that have closed: what the view holds and what
was thrown away is what the tokens have left, and all that was thrown away is doomed. -/
structure Account (ts : List Token) (i : Nat) (s : Scope) : Prop where
  sound : s.Sound
  ordered : Ordered ts s.marks
  balance : ∃ lost : List Item, (s.live ++ lost).Perm (itemsBefore ts i) ∧
    ∀ e ∈ lost, e.Doomed ts

theorem Account.exists_position {ts : List Token} {i : Nat} {s : Scope} (h : Account ts i s)
    {e : Item} (he : e ∈ s.live) : ∃ j < i, itemAt? ts j = some e := by
  obtain ⟨lost, hperm, _⟩ := h.balance
  exact mem_itemsBefore.1 (hperm.subset (List.mem_append_left _ he))

/-- What is thrown away stands under a branch that has no condition, and the block that closes is
another one of the same choice. -/
theorem Scope.mem_lostTop {s : Scope} {e : Item} (h : e ∈ s.lostTop) :
    ∃ l l' p fallback choice rest, s.marks = (l', fallback) :: (choice, some l) :: rest ∧
      ⟨l, p, true⟩ ∈ s.live ∧ ⟨l', p, true⟩ ∈ s.live ∧ l ∈ e.line :: e.around := by
  unfold Scope.lostTop at h
  split at h
  · next depth l' nodes depth' choice slot cases fallback rest hframes =>
    cases fallback with
    | none => cases h
    | some b =>
      obtain ⟨condition, children, l⟩ := b
      have hmem : ∀ e' ∈ pending s.frames, e' ∈ s.live := fun e' => List.mem_append_right _
      have hin : e ∈ (Branch.entry false true ⟨condition, children, l⟩).items (choice :: path rest) := by
        rwa [fallbackEntries, itemsAll, itemsAll, List.append_nil] at h
      refine ⟨l, l', choice :: path rest, none, choice, rest.map Frame.mark, ?_, hmem _ ?_, hmem _ ?_, ?_⟩
      · rw [Scope.marks, hframes]
        rfl
      · rw [hframes, pending, pending, Frame.items, Frame.items]
        simp [Entry.itemsAll_append, fallbackEntries, itemsAll, Scope.items_entry]
      · rw [hframes, pending]
        exact List.mem_cons_self
      · rcases Entry.suffix_of_mem_items hin with rfl | hs
        · exact List.mem_cons_self
        · exact List.mem_cons_of_mem _ (hs.subset List.mem_cons_self)
  · cases h

theorem Account.doomed_of_mem_lostTop {ts : List Token} (hlines : (ts.map Token.line).Nodup)
    {i : Nat} {s : Scope} (h : Account ts i s) {e : Item} (he : e ∈ s.lostTop) : e.Doomed ts := by
  obtain ⟨l, l', p, fallback, choice, rest, hmarks, hl, hl', hmem⟩ := Scope.mem_lostTop he
  obtain ⟨j, _, hj⟩ := h.exists_position hl
  obtain ⟨k, _, hk⟩ := h.exists_position hl'
  have hordered := h.ordered
  rw [hmarks] at hordered
  obtain ⟨j', k', hlt, hj', hk'⟩ := (List.isChain_cons_cons.1 hordered).1 l rfl
  -- the lines tell the positions, so that the positions are in the order of the marks
  have hjj := lineAt_inj hlines hj' (lineAt_of_itemAt? hj)
  have hkk := lineAt_inj hlines hk' (lineAt_of_itemAt? hk)
  subst hjj hkk
  exact ⟨j', lt_of_lineAt hj', ⟨_, hj, k', lt_of_lineAt hk', hlt, _, hk, rfl, rfl, rfl⟩, l, hj', hmem⟩

theorem Account.closeTop {ts : List Token} (hlines : (ts.map Token.line).Nodup) {i : Nat}
    {s : Scope} (h : Account ts i s) : Account ts i s.closeTop := by
  refine ⟨h.sound.closeTop, h.ordered.closeTop, ?_⟩
  obtain ⟨lost, hperm, hlost⟩ := h.balance
  refine ⟨s.lostTop ++ lost, ?_, ?_⟩
  · have hclose := (Scope.live_closeTop h.sound).symm.append_right lost
    rw [List.append_assoc] at hclose
    exact (List.perm_append_comm_assoc _ _ _).trans (hclose.trans hperm)
  · intro e he
    rcases List.mem_append.1 he with he | he
    · exact h.doomed_of_mem_lostTop hlines he
    · exact hlost e he

theorem exists_frame_of_mem_path {l : Int} {frames : List Frame} (h : l ∈ path frames) :
    ∃ f ∈ frames, f.line = l := by
  induction frames with
  | nil => cases h
  | cons f rest ih =>
    rw [path] at h
    split_ifs at h
    · cases h
    · rcases List.mem_cons.1 h with rfl | h
      · exact ⟨f, List.mem_cons_self, rfl⟩
      · obtain ⟨g, hg, rfl⟩ := ih h
        exact ⟨g, List.mem_cons_of_mem _ hg, rfl⟩

/-- The blocks around a token were opened on earlier lines. -/
theorem exists_lineAt_of_mem_path {ts : List Token} {i : Nat} (hi : i ≤ ts.length) {l : Int}
    (h : l ∈ path (Scope.around ts i).frames) : ∃ j < i, lineAt ts j = some l := by
  obtain ⟨f, hf, rfl⟩ := exists_frame_of_mem_path h
  have hbare : f.bare ∈ (Scope.around ts i).outline.reverse :=
    List.mem_reverse.2 (List.mem_map_of_mem hf)
  rw [(Scope.told hi).outline_around hi] at hbare
  obtain ⟨j, hj, hpushed⟩ := List.mem_flatMap.1 hbare
  have hj := List.mem_range.1 (List.mem_filter.1 hj).1
  have ht := List.getElem?_eq_getElem (show j < ts.length by omega)
  refine ⟨j, hj, ?_⟩
  rw [lineAt, ht]
  rcases (Scope.pushedAt_cases ht).2 with h | ⟨block, h⟩ <;> rw [h] at hpushed
  · cases hpushed
  · have hline := congrArg Frame.line (List.mem_singleton.1 hpushed)
    exact congrArg some hline.symm

/-- The branch without a condition that the innermost block has is among the items. -/
theorem Scope.exists_mem_live_of_mark {s : Scope} {mark : Int × Option Int}
    (hm : mark ∈ s.marks.head?) {l : Int} (hl : l ∈ mark.2) : ∃ p, ⟨l, p, true⟩ ∈ s.live := by
  rcases s with ⟨m, _ | ⟨⟨depth, line, block⟩, rest⟩⟩
  · cases hm
  · cases hm
    cases block with
    | choice slot cases fallback =>
      obtain ⟨⟨condition, children, _⟩, rfl, rfl⟩ := Option.map_eq_some_iff.1 hl
      refine ⟨line :: path rest, List.mem_append_right _ ?_⟩
      rw [pending, Frame.items]
      simp [Entry.itemsAll_append, fallbackEntries, itemsAll, Scope.items_entry]
    | _ => cases hl

theorem Account.dispatch {ts : List Token} (hlines : (ts.map Token.line).Nodup) {i : Nat}
    {t : Token} (ht : ts[i]? = some t) (h : Account ts i (Scope.around ts i)) {s' : Scope}
    (hline : (Scope.around ts i).dispatch t = .ok s') : Account ts (i + 1) s' := by
  have hat : lineAt ts i = some t.line := by rw [lineAt, ht]; rfl
  refine ⟨h.sound.dispatch hline, h.ordered.dispatch hline ?_, ?_⟩
  · intro mark hm l hl
    obtain ⟨p, hp⟩ := Scope.exists_mem_live_of_mark hm hl
    obtain ⟨j, hj, hitem⟩ := h.exists_position hp
    exact ⟨j, i, hj, lineAt_of_itemAt? hitem, hat⟩
  · have hne : (path (Scope.around ts i).frames).head? ≠ some t.line := by
      intro heq
      have hi := (List.getElem?_eq_some_iff.1 ht).1
      obtain ⟨j, hj, hjl⟩ := exists_lineAt_of_mem_path (Nat.le_of_lt hi) (List.mem_of_mem_head? heq)
      have := lineAt_inj hlines hjl hat
      omega
    obtain ⟨lost, hperm, hlost⟩ := h.balance
    refine ⟨lost, ?_, hlost⟩
    have hitem : itemAt? ts i = (Scope.around ts i).item? t := by rw [itemAt?, ht]; rfl
    rw [itemsBefore_succ, hitem]
    have hadd := (Scope.live_dispatch hne hline).append_right lost
    rw [List.append_assoc] at hadd
    exact hadd.trans (List.perm_append_comm.trans (hperm.append_right _))

theorem Account.drop {ts : List Token} {i : Nat} {t : Token} (ht : ts[i]? = some t)
    (h : Account ts i (Scope.around ts i)) {reason : DropReason}
    (hline : (Scope.around ts i).dispatch t = .error reason) :
    Account ts (i + 1) (Scope.around ts i) := by
  refine ⟨h.sound, h.ordered, ?_⟩
  have hitem : itemAt? ts i = none := by
    rw [itemAt?, ht]
    simp [Scope.item?, hline]
  rw [itemsBefore_succ, hitem]
  simpa using h.balance

/-- The account is right around every token, and at the end. -/
theorem account {ts : List Token} (hlines : (ts.map Token.line).Nodup) {i : Nat}
    (hi : i ≤ ts.length) : Account ts i (Scope.around ts i) := by
  refine Scope.around_rec ⟨trivial, List.isChain_nil, [], .refl _, fun e he => by cases he⟩
    (fun i s h => h.closeTop hlines) (fun i t ht haround => ?_) hi
  rw [Scope.before_succ ht, Scope.step, ← Scope.around_eq ht]
  split
  · next hline => exact haround.dispatch hlines ht hline
  · next hline => exact haround.drop ht hline

end ComponentLang
