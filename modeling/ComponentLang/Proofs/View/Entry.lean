import ComponentLang.View.Node
import Mathlib.Data.List.Perm.Basic
import Mathlib.Data.List.Nodup
import Mathlib.Tactic.SplitIfs

/-!
# What lines leave in a view

Each line of a view that finds a place leaves one entry there: a node, a branch, or a text of its
own. The text that a header holds on its own line is no entry.

* `Entry` : a line, and the entries under it. A `fallback` is the branch of a choice that has no
  condition;
* `Item`, `Entry.items` : the entries one by one, each with the lines that it stands under;
* `ViewNode.entries`, `entriesAll` : the entries of nodes;
* `mem_linesAll_of_mem_around` : the lines that an item stands under have items of their own;
* `eq_of_isFallback` : under one choice stands one fallback at most;
* `mem_lines_entriesAll` : the text that a header holds stands on the line of the header.
-/

namespace ComponentLang

/-- What a line leaves in a view, and what stands under it there. -/
inductive Entry where
  | mk (line : Int) (isFallback : Bool) (inner : List Entry)

/-- An entry and its place: the lines that it stands under, innermost first. -/
structure Item where
  line : Int
  around : List Int
  isFallback : Bool
deriving DecidableEq, Repr

namespace Entry

/-- The line that left the entry. -/
def line : Entry → Int
  | .mk line _ _ => line

/-- The entry is a branch of a choice without a condition. -/
def isFallback : Entry → Bool
  | .mk _ isFallback _ => isFallback

mutual

/-- The entry and those under it, with their places. -/
def items (around : List Int) : Entry → List Item
  | .mk line isFallback inner => ⟨line, around, isFallback⟩ :: itemsAll (line :: around) inner

/-- Entries that stand side by side and those under them, with their places. -/
def itemsAll (around : List Int) : List Entry → List Item
  | [] => []
  | e :: es => e.items around ++ itemsAll around es

end

mutual

/-- No entry under this one has two fallbacks right under it, nor has this one. -/
def Sole : Entry → Prop
  | .mk _ _ inner => inner.countP isFallback ≤ 1 ∧ SoleAll inner

/-- None of the entries has two fallbacks right under it, nor have those under them. -/
def SoleAll : List Entry → Prop
  | [] => True
  | e :: es => e.Sole ∧ SoleAll es

end

theorem itemsAll_append (around : List Int) (es es' : List Entry) :
    itemsAll around (es ++ es') = itemsAll around es ++ itemsAll around es' := by
  induction es with
  | nil => rfl
  | cons e es ih => rw [List.cons_append, itemsAll, itemsAll, ih, List.append_assoc]

theorem soleAll_append {es es' : List Entry} :
    SoleAll (es ++ es') ↔ SoleAll es ∧ SoleAll es' := by
  induction es with
  | nil => simp [SoleAll]
  | cons e es ih => rw [List.cons_append, SoleAll, SoleAll, ih, and_assoc]

/-! ## Places -/

mutual

theorem suffix_of_mem_items {around : List Int} {i : Item} : ∀ {e : Entry},
    i ∈ e.items around → i = ⟨e.line, around, e.isFallback⟩ ∨ e.line :: around <:+ i.around
  | .mk line isFallback inner, h => by
    rw [items] at h
    rcases List.mem_cons.1 h with rfl | h
    · exact Or.inl rfl
    · right
      rcases suffix_of_mem_itemsAll h with ⟨e, _, rfl⟩ | ⟨e, _, hs⟩
      · exact List.suffix_refl _
      · exact (List.suffix_cons _ _).trans hs

theorem suffix_of_mem_itemsAll {around : List Int} {i : Item} : ∀ {es : List Entry},
    i ∈ itemsAll around es →
      (∃ e ∈ es, i = ⟨e.line, around, e.isFallback⟩) ∨ ∃ e ∈ es, e.line :: around <:+ i.around
  | [], h => by simp [itemsAll] at h
  | e :: es, h => by
    rw [itemsAll] at h
    rcases List.mem_append.1 h with h | h
    · rcases suffix_of_mem_items h with h | h
      · exact Or.inl ⟨e, by simp, h⟩
      · exact Or.inr ⟨e, by simp, h⟩
    · rcases suffix_of_mem_itemsAll h with ⟨e', he', h⟩ | ⟨e', he', h⟩
      · exact Or.inl ⟨e', by simp [he'], h⟩
      · exact Or.inr ⟨e', by simp [he'], h⟩

end

/-- An item right at the given place is one of the entries there. -/
theorem exists_of_around_eq {around : List Int} {i : Item} {es : List Entry}
    (h : i ∈ itemsAll around es) (hi : i.around = around) :
    ∃ e ∈ es, i = ⟨e.line, around, e.isFallback⟩ := by
  rcases suffix_of_mem_itemsAll h with h | ⟨e, _, hs⟩
  · exact h
  · have := hs.length_le
    rw [hi, List.length_cons] at this
    omega

theorem line_mem_items (around : List Int) (e : Entry) :
    e.line ∈ (e.items around).map Item.line := by
  obtain ⟨l, isFallback, inner⟩ := e
  exact List.mem_cons_self

theorem mem_lines_of_mem {around : List Int} {e : Entry} {es : List Entry} (h : e ∈ es) :
    e.line ∈ (itemsAll around es).map Item.line := by
  induction es with
  | nil => cases h
  | cons e' es ih =>
    rw [itemsAll, List.map_append]
    rcases List.mem_cons.1 h with rfl | h
    · exact List.mem_append_left _ (line_mem_items around e)
    · exact List.mem_append_right _ (ih h)

mutual

theorem mem_lines_of_mem_around {around : List Int} {i : Item} {q : Int} : ∀ {e : Entry},
    i ∈ e.items around → q ∈ i.around → q ∈ around ∨ q ∈ (e.items around).map Item.line
  | .mk line isFallback inner, h, hq => by
    rw [items] at h ⊢
    rcases List.mem_cons.1 h with rfl | h
    · exact Or.inl hq
    · rcases mem_linesAll_of_mem_around h hq with hq | hq
      · rcases List.mem_cons.1 hq with rfl | hq
        · exact Or.inr (by simp)
        · exact Or.inl hq
      · exact Or.inr (by rw [List.map_cons]; exact List.mem_cons_of_mem _ hq)

/-- A line that an item stands under has an item as well. -/
theorem mem_linesAll_of_mem_around {around : List Int} {i : Item} {q : Int} : ∀ {es : List Entry},
    i ∈ itemsAll around es → q ∈ i.around →
      q ∈ around ∨ q ∈ (itemsAll around es).map Item.line
  | [], h, _ => by simp [itemsAll] at h
  | e :: es, h, hq => by
    rw [itemsAll] at h ⊢
    rw [List.map_append]
    rcases List.mem_append.1 h with h | h
    · exact (mem_lines_of_mem_around h hq).imp_right (List.mem_append_left _)
    · exact (mem_linesAll_of_mem_around h hq).imp_right (List.mem_append_right _)

end

/-- Items that stand under entries of different lines have different places. -/
theorem line_eq_of_suffix {around place : List Int} {l l' : Int} (h : l :: around <:+ place)
    (h' : l' :: around <:+ place) : l = l' := by
  have := List.suffix_of_suffix_length_le h h' (by simp)
  have := this.eq_of_length (by simp)
  exact (List.cons.inj this).1

mutual

theorem eq_of_isFallback_items {around : List Int} {i j : Item} : ∀ {e : Entry}, e.Sole →
    ((e.items around).map Item.line).Nodup → i ∈ e.items around → j ∈ e.items around →
    i.isFallback → j.isFallback → i.around = j.around → i = j
  | .mk line isFallback inner, hsole, hnodup, hi, hj, hfi, hfj, hij => by
    rw [items] at hi hj hnodup
    rw [List.map_cons, List.nodup_cons] at hnodup
    -- below the entry itself, all places go on from its line
    have hbelow : ∀ k ∈ itemsAll (line :: around) inner, k.around ≠ around := by
      intro k hk hkeq
      have hlen : (line :: around).length ≤ k.around.length := by
        rcases suffix_of_mem_itemsAll hk with ⟨e, _, rfl⟩ | ⟨e, _, hs⟩
        · exact Nat.le_refl _
        · exact ((List.suffix_cons _ _).trans hs).length_le
      rw [hkeq, List.length_cons] at hlen
      omega
    rcases List.mem_cons.1 hi with rfl | hi <;> rcases List.mem_cons.1 hj with rfl | hj
    · rfl
    · exact absurd hij.symm (hbelow j hj)
    · exact absurd hij (hbelow i hi)
    · exact eq_of_isFallback hsole.1 hsole.2 hnodup.2 hi hj hfi hfj hij

/-- Two fallbacks at one place are the same. -/
theorem eq_of_isFallback {around : List Int} {i j : Item} : ∀ {es : List Entry},
    es.countP isFallback ≤ 1 → SoleAll es → ((itemsAll around es).map Item.line).Nodup →
    i ∈ itemsAll around es → j ∈ itemsAll around es →
    i.isFallback → j.isFallback → i.around = j.around → i = j
  | [], _, _, _, hi, _, _, _, _ => by simp [itemsAll] at hi
  | e :: es, hone, hsole, hnodup, hi, hj, hfi, hfj, hij => by
    rw [itemsAll] at hi hj hnodup
    rw [List.map_append, List.nodup_append] at hnodup
    obtain ⟨hnodup, hnodup', hdisj⟩ := hnodup
    have hone' : es.countP isFallback ≤ 1 :=
      Nat.le_trans (List.Sublist.countP_le (List.sublist_cons_self e es)) hone
    -- an item of the first entry and one of the others are never fallbacks at one place
    have hcross : ∀ i ∈ e.items around, ∀ j ∈ itemsAll around es, i.isFallback → j.isFallback →
        i.around ≠ j.around := by
      intro i hi j hj hfi hfj hij
      rcases suffix_of_mem_items hi with rfl | hs
      · obtain ⟨e', he', rfl⟩ := exists_of_around_eq hj hij.symm
        have hpos : 0 < es.countP isFallback := List.countP_pos_iff.2 ⟨e', he', hfj⟩
        have hfi : e.isFallback := hfi
        rw [List.countP_cons, if_pos hfi] at hone
        omega
      · rw [hij] at hs
        rcases suffix_of_mem_itemsAll hj with ⟨e', _, rfl⟩ | ⟨e', he', hs'⟩
        · have hlen := hs.length_le
          rw [List.length_cons] at hlen
          exact absurd hlen (Nat.not_succ_le_self _)
        · exact hdisj _ (line_mem_items around e) _ (mem_lines_of_mem he')
            (line_eq_of_suffix hs hs')
    rcases List.mem_append.1 hi with hi | hi <;> rcases List.mem_append.1 hj with hj | hj
    · exact eq_of_isFallback_items hsole.1 hnodup hi hj hfi hfj hij
    · exact absurd hij (hcross i hi j hj hfi hfj)
    · exact absurd hij.symm (hcross j hj i hi hfj hfi)
    · exact eq_of_isFallback hone' hsole.2 hnodup' hi hj hfi hfj hij

end

end Entry

/-! ## The entries of nodes -/

mutual

/-- The entries of a node that stands in a body opened on the line `holder`. A text on that line is
the one that the header holds; it is an entry only if `inline` texts are asked for. -/
def ViewNode.entries (inline : Bool) (holder : Option Int) : ViewNode → List Entry
  | .text _ _ l => if !inline && holder = some l then [] else [.mk l false []]
  | .element _ _ _ children l => [.mk l false (entriesAll inline (some l) children)]
  | .fragment children l => [.mk l false (entriesAll inline (some l) children)]
  | .each _ _ children l => [.mk l false (entriesAll inline (some l) children)]
  | .cond chain => chainEntries inline chain
  | .choice _ cases fallback l =>
    [.mk l false (branchEntries inline cases ++ fallbackEntries inline fallback)]
  | .slot _ l => [.mk l false []]

/-- The entries of the nodes in a body. -/
def entriesAll (inline : Bool) (holder : Option Int) : List ViewNode → List Entry
  | [] => []
  | node :: rest => node.entries inline holder ++ entriesAll inline holder rest

/-- The entry of a branch. -/
def Branch.entry (inline isFallback : Bool) : Branch ViewNode → Entry
  | ⟨_, children, l⟩ => .mk l isFallback (entriesAll inline (some l) children)

/-- The entries of a condition and its alternates, which stand side by side. -/
def chainEntries (inline : Bool) : Chain ViewNode → List Entry
  | .last b => [b.entry inline false]
  | .link b alternate => b.entry inline false :: chainEntries inline alternate

/-- The entries of branches with conditions. -/
def branchEntries (inline : Bool) : List (Branch ViewNode) → List Entry
  | [] => []
  | b :: rest => b.entry inline false :: branchEntries inline rest

/-- The entry of the branch without a condition. -/
def fallbackEntries (inline : Bool) : Option (Branch ViewNode) → List Entry
  | none => []
  | some b => [b.entry inline true]

end

open Entry (items itemsAll itemsAll_append)

theorem entriesAll_append (inline : Bool) (holder : Option Int) (nodes nodes' : List ViewNode) :
    entriesAll inline holder (nodes ++ nodes') =
      entriesAll inline holder nodes ++ entriesAll inline holder nodes' := by
  induction nodes with
  | nil => rfl
  | cons node nodes ih => rw [List.cons_append, entriesAll, entriesAll, ih, List.append_assoc]

theorem branchEntries_append (inline : Bool) (bs bs' : List (Branch ViewNode)) :
    branchEntries inline (bs ++ bs') = branchEntries inline bs ++ branchEntries inline bs' := by
  induction bs with
  | nil => rfl
  | cons b bs ih => rw [List.cons_append, branchEntries, branchEntries, ih, List.cons_append]

theorem chainEntries_withAlternate (inline : Bool) (c a : Chain ViewNode) :
    chainEntries inline (c.withAlternate a) = chainEntries inline c ++ chainEntries inline a := by
  induction c with
  | last b => rfl
  | link b rest ih => rw [Chain.withAlternate, chainEntries, ih, chainEntries, List.cons_append]

theorem entriesAll_inlineNodes (text : Option Text) (line : Int) :
    entriesAll false (some line)
      (text.map fun t => .text (classifyText false t).1 (classifyText false t).2 line).toList =
        [] := by
  cases text <;> simp [entriesAll, ViewNode.entries]

/-! ### Fallbacks -/

theorem isFallback_entry (inline isFallback : Bool) (b : Branch ViewNode) :
    (b.entry inline isFallback).isFallback = isFallback := by
  cases b
  rw [Branch.entry]
  rfl

theorem countP_chainEntries (inline : Bool) (c : Chain ViewNode) :
    (chainEntries inline c).countP Entry.isFallback = 0 := by
  induction c with
  | last b => simp [chainEntries, isFallback_entry]
  | link b rest ih => simp [chainEntries, isFallback_entry, ih]

theorem countP_branchEntries (inline : Bool) (bs : List (Branch ViewNode)) :
    (branchEntries inline bs).countP Entry.isFallback = 0 := by
  induction bs with
  | nil => rfl
  | cons b bs ih => simp [branchEntries, isFallback_entry, ih]

theorem countP_fallbackEntries_le (inline : Bool) (fallback : Option (Branch ViewNode)) :
    (fallbackEntries inline fallback).countP Entry.isFallback ≤ 1 := by
  cases fallback with
  | none => simp [fallbackEntries]
  | some b => simp [fallbackEntries, isFallback_entry]

theorem countP_entriesAll (inline : Bool) (holder : Option Int) (nodes : List ViewNode) :
    (entriesAll inline holder nodes).countP Entry.isFallback = 0 := by
  induction nodes with
  | nil => rfl
  | cons node nodes ih =>
    rw [entriesAll, List.countP_append, ih, Nat.add_zero]
    cases node with
    | cond chain => exact countP_chainEntries inline chain
    | text content mode l =>
      rw [ViewNode.entries]
      split_ifs <;> rfl
    | _ => rfl

mutual

theorem soleAll_entries (inline : Bool) (holder : Option Int) : ∀ node : ViewNode,
    Entry.SoleAll (node.entries inline holder)
  | .text _ _ l => by
    rw [ViewNode.entries]
    split_ifs
    · trivial
    · exact ⟨⟨Nat.zero_le 1, trivial⟩, trivial⟩
  | .element _ _ _ children l => sole_of_children inline l children
  | .fragment children l => sole_of_children inline l children
  | .each _ _ children l => sole_of_children inline l children
  | .cond chain => soleAll_chainEntries inline chain
  | .choice _ cases fallback l => by
    have hcount : (branchEntries inline cases ++ fallbackEntries inline fallback).countP
        Entry.isFallback ≤ 1 := by
      rw [List.countP_append, countP_branchEntries, Nat.zero_add]
      exact countP_fallbackEntries_le inline fallback
    exact ⟨⟨hcount, Entry.soleAll_append.2
      ⟨soleAll_branchEntries inline cases, soleAll_fallbackEntries inline fallback⟩⟩, trivial⟩
  | .slot _ l => ⟨⟨Nat.zero_le 1, trivial⟩, trivial⟩

theorem sole_of_children (inline : Bool) (l : Int) : ∀ children : List ViewNode,
    Entry.SoleAll [.mk l false (entriesAll inline (some l) children)]
  | children => ⟨⟨by rw [countP_entriesAll]; exact Nat.zero_le 1,
      soleAll_entriesAll inline (some l) children⟩, trivial⟩

theorem soleAll_entriesAll (inline : Bool) (holder : Option Int) : ∀ nodes : List ViewNode,
    Entry.SoleAll (entriesAll inline holder nodes)
  | [] => trivial
  | node :: rest =>
    Entry.soleAll_append.2 ⟨soleAll_entries inline holder node, soleAll_entriesAll inline holder rest⟩

theorem sole_entry (inline isFallback : Bool) : ∀ b : Branch ViewNode,
    (b.entry inline isFallback).Sole
  | ⟨_, children, l⟩ => ⟨by rw [countP_entriesAll]; exact Nat.zero_le 1,
      soleAll_entriesAll inline (some l) children⟩

theorem soleAll_chainEntries (inline : Bool) : ∀ c : Chain ViewNode,
    Entry.SoleAll (chainEntries inline c)
  | .last b => ⟨sole_entry inline false b, trivial⟩
  | .link b rest => ⟨sole_entry inline false b, soleAll_chainEntries inline rest⟩

theorem soleAll_branchEntries (inline : Bool) : ∀ bs : List (Branch ViewNode),
    Entry.SoleAll (branchEntries inline bs)
  | [] => trivial
  | b :: bs => ⟨sole_entry inline false b, soleAll_branchEntries inline bs⟩

theorem soleAll_fallbackEntries (inline : Bool) : ∀ fallback : Option (Branch ViewNode),
    Entry.SoleAll (fallbackEntries inline fallback)
  | none => trivial
  | some b => ⟨sole_entry inline true b, trivial⟩

end

/-! ### Texts on the line of a header -/

/-- The lines of entries. -/
def Entry.lines (es : List Entry) : List Int := (itemsAll [] es).map Item.line

mutual

theorem Entry.lines_items (a a' : List Int) : ∀ e : Entry,
    (e.items a).map Item.line = (e.items a').map Item.line
  | .mk l isFallback inner => by
    rw [items, items, List.map_cons, List.map_cons,
      Entry.lines_itemsAll (l :: a) (l :: a') inner]

theorem Entry.lines_itemsAll (a a' : List Int) : ∀ es : List Entry,
    (itemsAll a es).map Item.line = (itemsAll a' es).map Item.line
  | [] => rfl
  | e :: es => by
    rw [itemsAll, itemsAll, List.map_append, List.map_append, Entry.lines_items a a' e,
      Entry.lines_itemsAll a a' es]

end

theorem Entry.lines_append (es es' : List Entry) :
    Entry.lines (es ++ es') = Entry.lines es ++ Entry.lines es' := by
  rw [Entry.lines, itemsAll_append, List.map_append]
  rfl

theorem Entry.lines_cons (l : Int) (isFallback : Bool) (inner es : List Entry) :
    Entry.lines (.mk l isFallback inner :: es) = l :: (Entry.lines inner ++ Entry.lines es) := by
  rw [Entry.lines, itemsAll, items, List.map_append, List.map_cons, Entry.lines_itemsAll [l] []]
  rfl

/-- A body opened on line `l`, with the entry of that line. -/
theorem mem_lines_body {l l' : Int} {isFallback : Bool} {full bare : List Entry}
    (h : ∀ l' ∈ Entry.lines full, some l' = some l ∨ l' ∈ Entry.lines bare)
    (hl : l' ∈ Entry.lines [.mk l isFallback full]) : l' ∈ Entry.lines [.mk l isFallback bare] := by
  rw [Entry.lines_cons] at hl ⊢
  rcases List.mem_cons.1 hl with rfl | hl
  · exact List.mem_cons_self
  · rcases List.mem_append.1 hl with hl | hl
    · rcases h l' hl with h | h
      · rw [Option.some.inj h]
        exact List.mem_cons_self
      · exact List.mem_cons_of_mem _ (List.mem_append_left _ h)
    · cases hl

mutual

/-- The line of a text that a header holds is the line of the header. -/
theorem mem_lines_entries {holder : Option Int} {l : Int} : ∀ node : ViewNode,
    l ∈ Entry.lines (node.entries true holder) →
      some l = holder ∨ l ∈ Entry.lines (node.entries false holder)
  | .text _ _ l', h => by
    have hl : l = l' := by simpa [ViewNode.entries, Entry.lines, itemsAll, items] using h
    by_cases hh : holder = some l'
    · exact Or.inl (by rw [hl, hh])
    · right
      simp [ViewNode.entries, hh, Entry.lines, itemsAll, items, hl]
  | .element _ _ _ children l', h =>
    Or.inr (mem_lines_body (fun _ hl => mem_lines_entriesAll children hl) h)
  | .fragment children l', h =>
    Or.inr (mem_lines_body (fun _ hl => mem_lines_entriesAll children hl) h)
  | .each _ _ children l', h =>
    Or.inr (mem_lines_body (fun _ hl => mem_lines_entriesAll children hl) h)
  | .cond chain, h => Or.inr (mem_lines_chainEntries chain h)
  | .choice _ cases fallback l', h => by
    refine Or.inr (mem_lines_body (fun l hl => ?_) h)
    rw [Entry.lines_append] at hl ⊢
    rcases List.mem_append.1 hl with hl | hl
    · exact Or.inr (List.mem_append_left _ (mem_lines_branchEntries cases hl))
    · exact Or.inr (List.mem_append_right _ (mem_lines_fallbackEntries fallback hl))
  | .slot _ l', h => Or.inr h

theorem mem_lines_entriesAll {holder : Option Int} {l : Int} : ∀ nodes : List ViewNode,
    l ∈ Entry.lines (entriesAll true holder nodes) →
      some l = holder ∨ l ∈ Entry.lines (entriesAll false holder nodes)
  | [], h => by cases h
  | node :: rest, h => by
    rw [entriesAll, Entry.lines_append] at h ⊢
    rcases List.mem_append.1 h with h | h
    · exact (mem_lines_entries node h).imp_right (List.mem_append_left _)
    · exact (mem_lines_entriesAll rest h).imp_right (List.mem_append_right _)

theorem mem_lines_entry {isFallback : Bool} {l : Int} : ∀ b : Branch ViewNode,
    l ∈ Entry.lines [b.entry true isFallback] → l ∈ Entry.lines [b.entry false isFallback]
  | ⟨_, children, _⟩, h => mem_lines_body (fun _ hl => mem_lines_entriesAll children hl) h

theorem mem_lines_chainEntries {l : Int} : ∀ c : Chain ViewNode,
    l ∈ Entry.lines (chainEntries true c) → l ∈ Entry.lines (chainEntries false c)
  | .last b, h => mem_lines_entry b h
  | .link b rest, h => by
    rw [chainEntries, ← List.singleton_append, Entry.lines_append] at h ⊢
    rcases List.mem_append.1 h with h | h
    · exact List.mem_append_left _ (mem_lines_entry b h)
    · exact List.mem_append_right _ (mem_lines_chainEntries rest h)

theorem mem_lines_branchEntries {l : Int} : ∀ bs : List (Branch ViewNode),
    l ∈ Entry.lines (branchEntries true bs) → l ∈ Entry.lines (branchEntries false bs)
  | [], h => by cases h
  | b :: rest, h => by
    rw [branchEntries, ← List.singleton_append, Entry.lines_append] at h ⊢
    rcases List.mem_append.1 h with h | h
    · exact List.mem_append_left _ (mem_lines_entry b h)
    · exact List.mem_append_right _ (mem_lines_branchEntries rest h)

theorem mem_lines_fallbackEntries {l : Int} : ∀ fallback : Option (Branch ViewNode),
    l ∈ Entry.lines (fallbackEntries true fallback) →
      l ∈ Entry.lines (fallbackEntries false fallback)
  | none, h => by cases h
  | some b, h => mem_lines_entry b h

end

end ComponentLang
