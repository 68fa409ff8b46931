import ComponentLang.Proofs.Scope.Notes
import ComponentLang.Proofs.View.Every

/-!
# References and slots

A name is noted when its line is read. The node gets to the forest later, when the blocks around it
close.

* `Scope.markup?`, `markupAt?` : what a token says that stands as markup among the nodes of a view;
* `namesRead name? ts k` : the names that the first `k` tokens give in this way;
* `names_around` : the names noted along a run are these, each once;
* `ViewNode.NamedIn refs slots` : the reference or slot name of a node is in these lists;
* `everyNode_namedIn` : every node of the forest and of the open blocks is named by a token;
* `names_buildManifest` : the references and slots of a manifest, and those of its view.
-/

namespace ComponentLang

/-! ## Names that are noted -/

theorem Manifest.nodup_register {names : List Text} (h : names.Nodup) (name : Text) :
    (register name names).Nodup := by
  unfold register
  split_ifs with hmem
  · exact h
  · refine List.nodup_append.2 ⟨h, List.nodup_singleton name, ?_⟩
    rintro a ha _ hb rfl
    rw [List.mem_singleton.1 hb] at ha
    exact hmem (List.contains_iff_mem.2 ha)

/-- Noting a name after others keeps the first occurrence of each. -/
theorem Manifest.note_eraseDups (name? : Option Text) (names : List Text) :
    note name? names.eraseDups = (names ++ name?.toList).eraseDups := by
  cases name? with
  | none => rw [Option.toList_none, List.append_nil]; rfl
  | some name =>
    rw [List.eraseDups_append]
    by_cases h : name ∈ names <;> simp [note, register, List.removeAll, List.eraseDups_cons, h]

theorem Manifest.nodup_eraseDups (names : List Text) : names.eraseDups.Nodup := by
  induction names using List.reverseRecOn with
  | nil => exact List.nodup_nil
  | append_singleton names name ih =>
    rw [← Option.toList_some, ← note_eraseDups]
    exact nodup_register ih name

namespace Scope

/-- What the line says, if it stands as markup among the nodes of a view. -/
def markup? (s : Scope) (t : Token) : Option Markup :=
  if s.InView ∧ isViewCategory t.category then t.markup? else none

theorem names_styleLine (s : Scope) (t : Token) :
    (s.orKeep (s.styleLine t)).notes.refs = s.notes.refs ∧
      (s.orKeep (s.styleLine t)).notes.slots = s.notes.slots := by
  unfold styleLine
  split_ifs
  · exact ⟨rfl, rfl⟩
  · split <;> exact ⟨rfl, rfl⟩

/-- A line notes the names that it gives as markup. -/
theorem names_dispatch (s : Scope) (t : Token) :
    (s.orKeep (s.dispatch t)).notes.refs =
        Manifest.note ((s.markup? t).bind Markup.ref?) s.notes.refs ∧
      (s.orKeep (s.dispatch t)).notes.slots =
        Manifest.note ((s.markup? t).bind Markup.slot?) s.notes.slots := by
  unfold markup?
  by_cases hv : s.InView ∧ isViewCategory t.category
  · rw [if_pos hv, dispatch_inView hv.1 hv.2, notes_nodeLine]
    exact ⟨rfl, rfl⟩
  · rw [if_neg hv]
    by_cases hs : s.ReachesStyle t
    · rw [dispatch_inStyle hs]
      exact names_styleLine s t
    · cases hline : s.dispatch t with
      | ok s' =>
        rw [orKeep, notes_dispatch hv hs hline]
        exact ⟨rfl, rfl⟩
      | error reason => exact ⟨rfl, rfl⟩

end Scope

/-- What the token at `i` says, if it stands as markup among the nodes of a view. -/
def markupAt? (ts : List Token) (i : Nat) : Option Markup := ts[i]?.bind (Scope.around ts i).markup?

/-- The names that the first `k` tokens give as markup among the nodes of a view, in order. -/
def namesRead (name? : Markup → Option Text) (ts : List Token) (k : Nat) : List Text :=
  (List.range k).filterMap fun i => (markupAt? ts i).bind name?

theorem namesRead_succ (name? : Markup → Option Text) (ts : List Token) (k : Nat) :
    namesRead name? ts (k + 1) = namesRead name? ts k ++ ((markupAt? ts k).bind name?).toList :=
  filterMap_range_succ _ _

/-- The names that are noted along a run are those that its tokens give. -/
theorem names_around {ts : List Token} {k : Nat} (hk : k ≤ ts.length) :
    (Scope.around ts k).notes.refs = (namesRead Markup.ref? ts k).eraseDups ∧
      (Scope.around ts k).notes.slots = (namesRead Markup.slot? ts k).eraseDups := by
  refine Scope.around_rec (P := fun k s => s.notes.refs = (namesRead Markup.ref? ts k).eraseDups ∧
    s.notes.slots = (namesRead Markup.slot? ts k).eraseDups) ⟨rfl, rfl⟩ ?_ ?_ hk
  · intro k s h
    rcases Scope.notes_closeTop s with heq | ⟨_, _, _, _, heq⟩ <;> rw [heq] <;> exact h
  · intro k t ht ⟨hrefs, hslots⟩
    have hmarkup : markupAt? ts k = (Scope.around ts k).markup? t := by
      rw [markupAt?, ht, Option.bind_some]
    obtain ⟨hrefs', hslots'⟩ := Scope.names_dispatch (Scope.around ts k) t
    rw [Scope.before_succ_eq_orKeep ht, hrefs', hslots', hrefs, hslots, ← hmarkup,
      Manifest.note_eraseDups, Manifest.note_eraseDups, namesRead_succ, namesRead_succ]
    exact ⟨rfl, rfl⟩

/-! ## Names in a forest -/

namespace ViewNode

/-- The reference of an element. -/
def ref? : ViewNode → Option Text
  | .element _ _ ref _ _ => ref
  | _ => none

/-- The name of a slot. -/
def slot? : ViewNode → Option Text
  | .slot name _ => some name
  | _ => none

/-- The reference of the node, if it has one, is in the first list, and its slot name in the second. -/
def NamedIn (refs slots : List Text) (node : ViewNode) : Prop :=
  (∀ ref ∈ node.ref?, ref ∈ refs) ∧ ∀ name ∈ node.slot?, name ∈ slots

variable {refs slots : List Text}

theorem ignoresFilling_namedIn : IgnoresFilling (NamedIn refs slots) where
  setChildren node children h := by
    cases node <;> exact h
  setBranches node cases fallback h := by
    cases node <;> exact h

theorem NamedIn.addAlternate {node : ViewNode} (h : node.NamedIn refs slots)
    (branch : Branch ViewNode) : (node.addAlternate branch).NamedIn refs slots := by
  cases node <;> exact h

theorem namedIn_of_nameless {node : ViewNode} (href : node.ref? = none) (hslot : node.slot? = none) :
    node.NamedIn refs slots := by
  constructor <;> simp [href, hslot]

/-- The nodes of a line are named by what it says as markup. -/
theorem brings_namedIn {t : Token} (hrefs : ∀ ref ∈ t.markup?.bind Markup.ref?, ref ∈ refs)
    (hslots : ∀ name ∈ t.markup?.bind Markup.slot?, name ∈ slots) :
    (ViewLine.read t).Brings (NamedIn refs slots) t.line := by
  have hmarkup : t.category ≠ .control → t.category = .element || Scope.isSlotLine t.text →
      t.markup? = some (Markup.parse t.text) := fun hcontrol hword => if_pos ⟨hcontrol, hword⟩
  refine brings_read ignoresFilling_namedIn ?_ ?_ ?_ ?_ ?_ ?_
  · exact fun _ _ _ => namedIn_of_nameless rfl rfl
  · exact fun _ _ _ => namedIn_of_nameless rfl rfl
  · exact fun _ _ => namedIn_of_nameless rfl rfl
  · exact fun _ _ => namedIn_of_nameless rfl rfl
  · intro name inline hcontrol hword hparse
    rw [hmarkup hcontrol hword, hparse] at hslots
    exact ⟨by rintro _ ⟨⟩, hslots⟩
  · intro e hcontrol hword hparse
    rw [hmarkup hcontrol hword, hparse] at hrefs
    unfold Scope.elementNode
    split_ifs
    · exact namedIn_of_nameless rfl rfl
    · exact ⟨hrefs, by rintro _ ⟨⟩⟩

end ViewNode

theorem mem_namesRead {name? : Markup → Option Text} {ts : List Token} {i : Nat} {t : Token}
    (ht : ts[i]? = some t) (hv : (Scope.around ts i).InView) (hc : Scope.isViewCategory t.category) :
    ∀ name ∈ t.markup?.bind name?, name ∈ namesRead name? ts ts.length := by
  intro name hname
  refine List.mem_filterMap.2 ⟨i, List.mem_range.2 (List.getElem?_eq_some_iff.1 ht).1, ?_⟩
  rw [markupAt?, ht, Option.bind_some, Scope.markup?, if_pos ⟨hv, hc⟩]
  exact hname

/-- All nodes are named by tokens, and still are when blocks close or lines are read. -/
theorem everyNode_namedIn (ts : List Token) :
    (Scope.around ts ts.length).EveryNode
      (ViewNode.NamedIn (namesRead Markup.ref? ts ts.length) (namesRead Markup.slot? ts ts.length)) := by
  refine Scope.around_induction Scope.everyNode_start ?_ ?_ (Nat.le_refl _)
  · exact fun s hs => hs.closeTop ViewNode.ignoresFilling_namedIn
      fun _ _ _ _ _ _ _ _ _ hnode => hnode.addAlternate _
  · intro i t s' ht hs hline
    refine hs.dispatch (fun _ _ _ => ViewNode.namedIn_of_nameless rfl rfl) (fun hv hc => ?_) hline
    exact ViewNode.brings_namedIn (mem_namesRead ht hv hc) (mem_namesRead ht hv hc)

/-- **References and slots are noted faithfully.** The references of a manifest are those that its
lines of markup among the nodes of views give, and the slots those that they declare, each once and in
the order in which they first occur. Among them are the references and slot names of all nodes,
wherever these stand in the view. -/
theorem names_buildManifest (ts : List Token) (c : Companions) :
    (buildManifest ts c).refs.Nodup ∧ (buildManifest ts c).slots.Nodup ∧
    (buildManifest ts c).refs = (namesRead Markup.ref? ts ts.length).eraseDups ∧
    (buildManifest ts c).slots = (namesRead Markup.slot? ts ts.length).eraseDups ∧
    ∀ node ∈ walkAll (buildManifest ts c).view,
      (∀ ref ∈ node.ref?, ref ∈ (buildManifest ts c).refs) ∧
      ∀ name ∈ node.slot?, name ∈ (buildManifest ts c).slots := by
  obtain ⟨hrefs, hslots⟩ := names_around (Nat.le_refl ts.length)
  have hrefs : (buildManifest ts c).refs = (namesRead Markup.ref? ts ts.length).eraseDups := by
    rw [← hrefs, Scope.buildManifest_eq_around]
    rfl
  have hslots : (buildManifest ts c).slots = (namesRead Markup.slot? ts ts.length).eraseDups := by
    rw [← hslots, Scope.buildManifest_eq_around]
    rfl
  rw [hrefs, hslots]
  refine ⟨Manifest.nodup_eraseDups _, Manifest.nodup_eraseDups _, rfl, rfl, fun node hnode => ?_⟩
  rw [Scope.buildManifest_eq_around] at hnode
  obtain ⟨href, hslot⟩ := (everyNode_namedIn ts).view node hnode
  exact ⟨fun ref h => List.mem_eraseDups.2 (href ref h),
    fun name h => List.mem_eraseDups.2 (hslot name h)⟩

/-- A reference that is given twice, and slots in both branches of a condition. -/
def card : List Token := [
  ⟨1, 0, .view, "view:".toList, "view:".toList, 0⟩,
  ⟨2, 4, .element, "h1#title: a".toList, "    h1#title: a".toList, 1⟩,
  ⟨3, 4, .control, "if $open:".toList, "    if $open:".toList, 1⟩,
  ⟨4, 8, .element, "p.big#title: b".toList, "        p.big#title: b".toList, 2⟩,
  ⟨5, 8, .expression, "slot body".toList, "        slot body".toList, 2⟩,
  ⟨6, 4, .control, "else:".toList, "    else:".toList, 1⟩,
  ⟨7, 8, .expression, "slot footer".toList, "        slot footer".toList, 2⟩]

/-- The reference is noted once, and the slots in order. -/
theorem names_buildManifest_card :
    namesRead Markup.ref? card card.length = ["title".toList, "title".toList] ∧
    (buildManifest card {}).refs = ["title".toList] ∧
    (buildManifest card {}).slots = ["body".toList, "footer".toList] ∧
    (walkAll (buildManifest card {}).view).filterMap ViewNode.slot? =
      ["body".toList, "footer".toList] ∧
    ∀ node ∈ walkAll (buildManifest card {}).view,
      (∀ ref ∈ node.ref?, ref ∈ ["title".toList]) ∧
      ∀ name ∈ node.slot?, name ∈ ["body".toList, "footer".toList] := by
  have href : namesRead Markup.ref? card card.length = ["title".toList, "title".toList] := by
    decide +kernel
  have hslot : namesRead Markup.slot? card card.length = ["body".toList, "footer".toList] := by
    decide +kernel
  have hview : (walkAll (buildManifest card {}).view).filterMap ViewNode.slot? =
      ["body".toList, "footer".toList] := by
    decide +kernel
  obtain ⟨-, -, hrefs, hslots, hnodes⟩ := names_buildManifest card {}
  rw [href] at hrefs
  rw [hslot] at hslots
  have hrefs' : (buildManifest card {}).refs = ["title".toList] := hrefs.trans (by decide +kernel)
  have hslots' : (buildManifest card {}).slots = ["body".toList, "footer".toList] :=
    hslots.trans (by decide +kernel)
  rw [hrefs', hslots'] at hnodes
  exact ⟨href, hrefs', hslots', hview, hnodes⟩

end ComponentLang
