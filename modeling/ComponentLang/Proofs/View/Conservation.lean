import ComponentLang.Proofs.View.Account

/-!
# Every line of the view is accounted for

Each line that belongs to the view is dropped with one notice, or leaves one entry in the forest.
Only a choice throws entries away: of its branches without a condition it keeps the last.

* `forest_balance` : the account of the finished forest;
* `not_mem_forest_of_superseded`, `not_mem_forest_of_doomed` : what is thrown away is gone in the
  end, with all that stands under it;
* `countP_buildNotices` : a line is dropped with one notice, or there is none on it;
* `view_line_conserved` : each line is dropped, stands in the forest once, or is `Discarded`.
-/

namespace ComponentLang

/-! ## The finished forest -/

theorem around_length (ts : List Token) (c : Companions) :
    (buildManifest ts c).view = (Scope.around ts ts.length).manifest.view := by
  rw [Scope.buildManifest_eq_around]
  rfl

/-- What stands in the forest and what was thrown away is what the tokens have left. -/
theorem forest_balance {ts : List Token} (hlines : (ts.map Token.line).Nodup)
    (hd : ∀ t ∈ ts, 0 ≤ t.depth) (c : Companions) :
    ∃ lost : List Item, (forestItems (buildManifest ts c).view ++ lost).Perm
      (itemsBefore ts ts.length) ∧ ∀ e ∈ lost, e.Doomed ts := by
  have h : Account ts ts.length (Scope.around ts ts.length) :=
    account hlines (Nat.le_refl _)
  obtain ⟨lost, hperm, hlost⟩ := h.balance
  refine ⟨lost, ?_, hlost⟩
  rw [Scope.live, Scope.frames_around_length hd, pending, List.append_nil, ← around_length ts c] at hperm
  exact hperm

theorem around_of_itemAt? {ts : List Token} {i : Nat} {e : Item} (h : itemAt? ts i = some e) :
    e.around = path (Scope.around ts i).frames := by
  obtain ⟨t, _, h⟩ := Option.bind_eq_some_iff.1 h
  unfold Scope.item? at h
  split_ifs at h
  split at h
  · cases h
    rfl
  · cases h

/-- The lines that an item stands under are earlier ones. -/
theorem lt_of_mem_around {ts : List Token} (hlines : (ts.map Token.line).Nodup) {i j : Nat}
    {e : Item} (he : itemAt? ts i = some e) {l : Int} (hl : l ∈ e.around)
    (hj : lineAt ts j = some l) : j < i := by
  rw [around_of_itemAt? he] at hl
  have hi := lt_of_lineAt (lineAt_of_itemAt? he)
  obtain ⟨k, hk, hkl⟩ := exists_lineAt_of_mem_path (Nat.le_of_lt hi) hl
  rwa [lineAt_inj hlines hj hkl]

section Forest

variable {ts : List Token} {nodes : List ViewNode} {lost : List Item}

theorem exists_position_of_mem_forest
    (hbal : (forestItems nodes ++ lost).Perm (itemsBefore ts ts.length)) {e : Item}
    (he : e ∈ forestItems nodes) : ∃ j, itemAt? ts j = some e := by
  obtain ⟨j, _, hj⟩ := mem_itemsBefore.1 (hbal.subset (List.mem_append_left _ he))
  exact ⟨j, hj⟩

theorem nodup_lines_forest (hlines : (ts.map Token.line).Nodup)
    (hbal : (forestItems nodes ++ lost).Perm (itemsBefore ts ts.length)) :
    ((forestItems nodes).map Item.line).Nodup := by
  have hnodup := (hbal.map Item.line).nodup_iff.2 (nodup_lines_itemsBefore hlines _)
  rw [List.map_append] at hnodup
  exact (List.nodup_append.1 hnodup).1

/-- The line of an item stands in the forest only if the item does. -/
theorem mem_forest_of_line (hlines : (ts.map Token.line).Nodup)
    (hbal : (forestItems nodes ++ lost).Perm (itemsBefore ts ts.length)) {i : Nat} {e : Item}
    (he : itemAt? ts i = some e) (hl : e.line ∈ (forestItems nodes).map Item.line) :
    e ∈ forestItems nodes := by
  obtain ⟨e', he', hline⟩ := List.mem_map.1 hl
  obtain ⟨j, hj⟩ := exists_position_of_mem_forest hbal he'
  rwa [← (itemAt?_inj hlines hj he hline).2]

/-- The lines that an item stands under stand in the forest. -/
theorem line_mem_forest {e : Item} (he : e ∈ forestItems nodes) {l : Int}
    (hl : l ∈ e.line :: e.around) : l ∈ (forestItems nodes).map Item.line := by
  rcases List.mem_cons.1 hl with rfl | hl
  · exact List.mem_map_of_mem he
  · rcases Entry.mem_linesAll_of_mem_around he hl with hl | hl
    · cases hl
    · exact hl

/-- A branch without a condition is gone if there is a later one at its place. -/
theorem not_mem_forest_of_superseded (hlines : (ts.map Token.line).Nodup)
    (hbal : (forestItems nodes ++ lost).Perm (itemsBefore ts ts.length))
    (hlost : ∀ e ∈ lost, e.Doomed ts) {j : Nat} {e : Item} (hj : itemAt? ts j = some e)
    (hsup : Superseded ts j) : e ∉ forestItems nodes := by
  induction j using Nat.strong_induction_on generalizing e with
  | _ j ih =>
    obtain ⟨e₀, he₀, k, hk, hjk, e', he', hfe, hfe', haround⟩ := hsup
    cases he₀.symm.trans hj
    intro hmem
    -- among the later ones, we go on to the next as long as the one at hand is superseded itself
    induction hn : ts.length - k using Nat.strong_induction_on generalizing k e' with
    | _ n ihk =>
      have hin : e' ∈ forestItems nodes ++ lost :=
        hbal.symm.subset (mem_itemsBefore.2 ⟨k, hk, he'⟩)
      rcases List.mem_append.1 hin with hin | hin
      · -- both stand in the forest, at one place
        have heq := Entry.eq_of_isFallback (by rw [countP_entriesAll]; exact Nat.zero_le 1)
          (soleAll_entriesAll false none nodes) (nodup_lines_forest hlines hbal) hmem hin hfe hfe'
          haround.symm
        have := (itemAt?_inj hlines hj he' (congrArg Item.line heq)).1
        omega
      · obtain ⟨q, _, hq, l, hl, hlmem⟩ := hlost e' hin
        rcases List.mem_cons.1 hlmem with rfl | hlmem
        · -- the later one is itself superseded, by one that is later still
          have hqk := lineAt_inj hlines hl (lineAt_of_itemAt? he')
          subst hqk
          obtain ⟨e₁, he₁, k', hk', hlt, e'', he'', _, hfe'', haround'⟩ := hq
          cases he₁.symm.trans he'
          exact ihk (ts.length - k') (by omega) k' hk' (by omega) e'' he'' hfe''
            (haround'.trans haround) rfl
        · -- the choice itself is gone
          rw [haround] at hlmem
          have hqj := lt_of_mem_around hlines hj hlmem hl
          obtain ⟨e₁, he₁, hline⟩ := hq.exists_item hl
          refine ih q hqj he₁ hq (mem_forest_of_line hlines hbal he₁ ?_)
          rw [hline]
          exact line_mem_forest hmem (List.mem_cons_of_mem _ hlmem)

theorem not_mem_forest_of_doomed (hlines : (ts.map Token.line).Nodup)
    (hbal : (forestItems nodes ++ lost).Perm (itemsBefore ts ts.length))
    (hlost : ∀ e ∈ lost, e.Doomed ts) {e : Item} (he : e.Doomed ts) : e ∉ forestItems nodes := by
  intro hmem
  obtain ⟨q, _, hq, l, hl, hlmem⟩ := he
  obtain ⟨e₁, he₁, hline⟩ := hq.exists_item hl
  refine not_mem_forest_of_superseded hlines hbal hlost he₁ hq
    (mem_forest_of_line hlines hbal he₁ ?_)
  rw [hline]
  exact line_mem_forest hmem hlmem

end Forest

/-! ## Notices on dropped lines -/

/-- The notice says that the line was dropped. -/
def Notice.drops (l : Int) : Notice → Bool
  | .dropped line _ _ => line == l
  | _ => false

theorem countP_runNotices_eq_zero {l : Int} {ts : List Token} (h : l ∉ ts.map Token.line)
    (s : Scope) : (s.runNotices ts).countP (Notice.drops l) = 0 := by
  induction ts generalizing s with
  | nil => rfl
  | cons t ts ih =>
    rw [List.map_cons, List.mem_cons, not_or] at h
    rw [Scope.runNotices, List.countP_append, ih h.2, Scope.step]
    split
    · rfl
    · simp [Notice.drops, Ne.symm h.1]

/-- The notices on a line are those of its own token. -/
theorem countP_buildNotices {ts : List Token} (hlines : (ts.map Token.line).Nodup)
    (c : Companions) {i : Nat} {t : Token} (ht : ts[i]? = some t) :
    (buildNotices ts c).countP (Notice.drops t.line) =
      match (Scope.around ts i).dispatch t with
      | .ok _ => 0
      | .error _ => 1 := by
  have hsplit : ts = ts.take i ++ t :: ts.drop (i + 1) := by
    obtain ⟨hi, rfl⟩ := List.getElem?_eq_some_iff.1 ht
    rw [← List.drop_eq_getElem_cons hi, List.take_append_drop]
  have hrun : Scope.start.runNotices ts = Scope.start.runNotices (ts.take i) ++
      (((Scope.before ts i).step t).2.toList ++
        ((Scope.before ts i).step t).1.runNotices (ts.drop (i + 1))) := by
    conv_lhs => rw [hsplit, Scope.runNotices_append, Scope.runNotices]
    rfl
  rw [hsplit, List.map_append, List.map_cons, List.nodup_append, List.nodup_cons] at hlines
  obtain ⟨_, ⟨hafter, _⟩, hdisj⟩ := hlines
  have hbefore : t.line ∉ (ts.take i).map Token.line := fun hmem =>
    hdisj _ hmem _ List.mem_cons_self rfl
  have hstep : (buildNotices ts c).countP (Notice.drops t.line) =
      ((Scope.before ts i).step t).2.toList.countP (Notice.drops t.line) := by
    rw [buildNotices, List.countP_append, hrun, List.countP_append, List.countP_append,
      countP_runNotices_eq_zero hbefore, countP_runNotices_eq_zero hafter, Nat.zero_add, Nat.add_zero]
    rfl
  rw [hstep, Scope.step, ← Scope.around_eq ht]
  cases (Scope.around ts i).dispatch t with
  | ok s' => rfl
  | error reason => simp [Notice.drops]

/-! ## Conservation -/

/-- The lines of the nodes, branches and texts of a forest, without those of the texts that headers
hold on their own lines. -/
def ownLines (nodes : List ViewNode) : List Int := Entry.lines (entriesAll false none nodes)

/-- The lines of all that stands in a forest. -/
def allLines (nodes : List ViewNode) : List Int := Entry.lines (entriesAll true none nodes)

theorem mem_ownLines_of_mem_allLines {nodes : List ViewNode} {l : Int} (h : l ∈ allLines nodes) :
    l ∈ ownLines nodes := by
  rcases mem_lines_entriesAll nodes h with h | h
  · cases h
  · exact h

/-- **No line of the view is lost or doubled.** A token that belongs to the view is dropped with
one notice and stands nowhere in the forest, or there is no notice on it and it stands there once.
The exception are tokens that stand under a branch without a condition which a later one of the same
choice has superseded: they are gone, as is that branch. -/
theorem view_line_conserved (ts : List Token) (hlines : (ts.map Token.line).Nodup)
    (hd : ∀ t ∈ ts, 0 ≤ t.depth) (c : Companions) (i : Nat) (t : Token) (ht : ts[i]? = some t)
    (hr : (Scope.around ts i).ReachesView t) :
    ((buildNotices ts c).countP (Notice.drops t.line) = 1 ∧
      t.line ∉ allLines (buildManifest ts c).view) ∨
    ((buildNotices ts c).countP (Notice.drops t.line) = 0 ∧
      ((¬ Discarded ts i ∧ (ownLines (buildManifest ts c).view).count t.line = 1) ∨
        (Discarded ts i ∧ t.line ∉ allLines (buildManifest ts c).view))) := by
  obtain ⟨lost, hbal, hlost⟩ := forest_balance hlines hd c
  have hat : lineAt ts i = some t.line := by rw [lineAt, ht]; rfl
  rw [countP_buildNotices hlines c ht]
  cases hline : (Scope.around ts i).dispatch t with
  | error reason =>
    refine Or.inl ⟨rfl, fun hmem => ?_⟩
    obtain ⟨e, he, hel⟩ := List.mem_map.1 (mem_ownLines_of_mem_allLines hmem)
    obtain ⟨j, hj⟩ := exists_position_of_mem_forest hbal he
    -- the item with this line would be that of the token, which has left none
    have hji := lineAt_inj hlines (lineAt_of_itemAt? hj) (hel ▸ hat)
    subst hji
    rw [itemAt?, ht] at hj
    simp [Scope.item?, hline] at hj
  | ok s' =>
    obtain ⟨e, hitem⟩ := exists_item?_of_ok hr hline
    have he : itemAt? ts i = some e := by rw [itemAt?, ht]; exact hitem
    have hel := line_of_item? hitem
    have hforest : t.line ∈ ownLines (buildManifest ts c).view →
        e ∈ forestItems (buildManifest ts c).view := fun hmem =>
      mem_forest_of_line hlines hbal he (by rw [hel]; exact hmem)
    refine Or.inr ⟨rfl, ?_⟩
    by_cases hdis : Discarded ts i
    · refine Or.inr ⟨hdis, fun hmem => ?_⟩
      obtain ⟨e', he', hdoomed⟩ := hdis
      cases he'.symm.trans he
      exact not_mem_forest_of_doomed hlines hbal hlost hdoomed
        (hforest (mem_ownLines_of_mem_allLines hmem))
    · refine Or.inl ⟨hdis, List.count_eq_one_of_mem (nodup_lines_forest hlines hbal) ?_⟩
      have hin : e ∈ forestItems (buildManifest ts c).view ++ lost :=
        hbal.symm.subset (mem_itemsBefore.2 ⟨i, lt_of_lineAt hat, he⟩)
      rcases List.mem_append.1 hin with hin | hin
      · rw [← hel]
        exact List.mem_map_of_mem hin
      · exact absurd ⟨e, he, hlost e hin⟩ hdis

/-- A choice with two branches without a condition. Under the first one stand a paragraph and a view
with another paragraph; a mark right under the choice is no branch. -/
def cabinet : List Token := [
  ⟨1, 0, .control, "match $a:".toList, "match $a:".toList, 0⟩,
  ⟨2, 4, .control, "default: x".toList, "    default: x".toList, 1⟩,
  ⟨3, 8, .element, "p: one".toList, "        p: one".toList, 2⟩,
  ⟨4, 8, .view, "view:".toList, "        view:".toList, 2⟩,
  ⟨5, 12, .element, "p: two".toList, "            p: two".toList, 3⟩,
  ⟨6, 4, .control, "default: y".toList, "    default: y".toList, 1⟩,
  ⟨7, 4, .element, "hr".toList, "    hr".toList, 1⟩]

/-- The first paragraph is gone with its branch, the second stands in the forest, and the mark is
dropped. -/
theorem view_line_conserved_cabinet :
    (Discarded cabinet 2 ∧ 3 ∉ allLines (buildManifest cabinet {}).view) ∧
    (¬ Discarded cabinet 4 ∧ (ownLines (buildManifest cabinet {}).view).count 5 = 1) ∧
    ((buildNotices cabinet {}).countP (Notice.drops 7) = 1 ∧
      7 ∉ allLines (buildManifest cabinet {}).view) := by
  have h := view_line_conserved cabinet (by decide) (by decide) {}
  refine ⟨?_, ?_, ?_⟩
  · rcases h 2 _ rfl (by decide) with ⟨hdrop, _⟩ | ⟨_, ⟨hdis, _⟩ | hgone⟩
    · exact absurd hdrop (by decide)
    · exact absurd (show Discarded cabinet 2 by decide) hdis
    · exact hgone
  · rcases h 4 _ rfl (by decide) with ⟨hdrop, _⟩ | ⟨_, hkept | ⟨hdis, _⟩⟩
    · exact absurd hdrop (by decide)
    · exact hkept
    · exact absurd hdis (by decide)
  · rcases h 6 _ rfl (by decide) with hdrop | ⟨hdrop, _⟩
    · exact hdrop
    · exact absurd hdrop (by decide)

end ComponentLang
