import ComponentLang.Proofs.Scope.Notes

/-!
# Open style rules

All rules of a component are in one list. An open one collects its declarations in its block, and these
get to the list when the block closes.

* `StyleRule.fill`, `StyleRule.declare` : a rule with other declarations, and with one more;
* `Notes.closed` : the rules as they are once the open ones are closed;
* `Notes.Stacked` : open rules are in the list, each after those around it;
* `closed_closeTop` : closing a block does not change what the rules will be;
* `closed_openRule`, `closed_collect` : a selector adds a rule, and a declaration goes to the rule of
  the innermost block, whatever else is open;
* `styleLine_eq` : what a line of a style does, told by the innermost block.
-/

namespace ComponentLang

/-- The rule with other declarations. -/
def StyleRule.fill (declarations : List Text) (r : StyleRule) : StyleRule :=
  { r with declarations := declarations }

/-- The rule with one more declaration. -/
def StyleRule.declare (text : Text) (r : StyleRule) : StyleRule :=
  { r with declarations := r.declarations ++ [text] }

/-- The line opens a rule. -/
def Token.isSelector (t : Token) : Bool := Text.endsWith ':' t.text

/-- The rule that a selector opens. -/
def StyleRule.ofSelector (t : Token) : StyleRule := ⟨Text.trim t.text.dropLast, [], t.line⟩

/-- The place of a style rule in the list of all. -/
def Block.ruleSlot? (b : Block) : Option Nat := b.rule?.map Prod.fst

theorem Block.ruleSlot?_bare (b : Block) : b.bare.ruleSlot? = b.ruleSlot? := by
  cases b <;> rfl

/-! ## Filling in open rules -/

/-- The rules with what open ones have collected, from the innermost on. -/
def fillRules (rules : List StyleRule) (collecting : List (Nat × List Text)) : List StyleRule :=
  collecting.foldl (fun rules c => rules.modify c.1 (.fill c.2)) rules

theorem modify_append_of_lt {α : Type} {f : α → α} {l : List α} {slot : Nat} (h : slot < l.length)
    (added : List α) : (l ++ added).modify slot f = l.modify slot f ++ added := by
  induction l generalizing slot with
  | nil => cases h
  | cons a l ih =>
    cases slot with
    | zero => rfl
    | succ slot => simp [ih (Nat.lt_of_succ_lt_succ h)]

/-- A rule at the end of the list stays there. -/
theorem fillRules_concat {rules : List StyleRule} {collecting : List (Nat × List Text)}
    (h : ∀ c ∈ collecting, c.1 < rules.length) (r : StyleRule) :
    fillRules (rules ++ [r]) collecting = fillRules rules collecting ++ [r] := by
  induction collecting generalizing rules with
  | nil => rfl
  | cons c rest ih =>
    obtain ⟨hc, hrest⟩ := List.forall_mem_cons.1 h
    show fillRules ((rules ++ [r]).modify c.1 (.fill c.2)) rest = _
    rw [modify_append_of_lt hc]
    refine ih fun c' hc' => ?_
    rw [List.length_modify]
    exact hrest c' hc'

/-- Filling in other rules does not change the one at a place. -/
theorem fillRules_modify {collecting : List (Nat × List Text)} {slot : Nat}
    (h : ∀ c ∈ collecting, c.1 ≠ slot) (f : StyleRule → StyleRule) (rules : List StyleRule) :
    fillRules (rules.modify slot f) collecting = (fillRules rules collecting).modify slot f := by
  induction collecting generalizing rules with
  | nil => rfl
  | cons c rest ih =>
    obtain ⟨hc, hrest⟩ := List.forall_mem_cons.1 h
    show fillRules ((rules.modify slot f).modify c.1 (.fill c.2)) rest = _
    rw [List.modify_modify_ne _ _ _ hc.symm]
    exact ih hrest _

namespace Notes

/-- The rules as they are once the open ones are closed. -/
def closed (n : Notes) : List StyleRule := fillRules n.rules n.collecting

/-- The places of the open rules, from the innermost on. -/
def slotsOpen (n : Notes) : List Nat := n.collecting.map Prod.fst

/-- Open rules are in the list, each after those around it. -/
structure Stacked (n : Notes) : Prop where
  ordered : n.collecting.Pairwise fun inner outer => outer.1 < inner.1
  listed : ∀ c ∈ n.collecting, c.1 < n.rules.length

end Notes

namespace Scope

section

variable {s : Scope}

theorem closed_closeTop (s : Scope) : s.closeTop.notes.closed = s.notes.closed := by
  rcases notes_closeTop s with h | ⟨slot, declarations, rest, hcollecting, h⟩
  · rw [h]
  · rw [h, Notes.closed, Notes.closed, hcollecting]
    rfl

theorem stacked_closeTop (h : s.notes.Stacked) : s.closeTop.notes.Stacked := by
  rcases notes_closeTop s with heq | ⟨slot, declarations, rest, hcollecting, heq⟩
  · rwa [heq]
  · obtain ⟨hordered, hlisted⟩ := h
    rw [hcollecting] at hordered hlisted
    rw [heq]
    refine ⟨(List.pairwise_cons.1 hordered).2, fun c hc => ?_⟩
    rw [List.length_modify]
    exact hlisted c (List.mem_cons_of_mem _ hc)

theorem slotsOpen_eq (s : Scope) :
    s.notes.slotsOpen = s.outline.filterMap fun f => f.block.ruleSlot? := by
  rw [outline, List.filterMap_map, Notes.slotsOpen, notes, List.map_filterMap]
  simp only [Function.comp_def, Frame.bare, Block.ruleSlot?_bare]
  rfl

theorem ruleSlot?_top (s : Scope) :
    s.top?.bind Block.ruleSlot? = s.outline.head?.bind fun f => f.block.ruleSlot? := by
  rw [outline, List.head?_map, top?, Option.bind_map, Option.bind_map]
  simp only [Function.comp_def, Frame.bare, Block.ruleSlot?_bare]

/-! ## Lines of a style -/

/-- The line belongs to a style, and opens a rule. -/
def OpensRule (s : Scope) (t : Token) : Prop := s.ReachesStyle t ∧ t.isSelector

instance (s : Scope) (t : Token) : Decidable (s.OpensRule t) :=
  inferInstanceAs (Decidable (_ ∧ _))

theorem openRule_eq (s : Scope) (t : Token) : (s.openRule t).notes = { s.notes with
    rules := s.notes.rules ++ [.ofSelector t]
    collecting := (s.notes.rules.length, []) :: s.notes.collecting } := rfl

/-- A selector adds a rule without declarations, after all that are there. -/
theorem closed_openRule (h : s.notes.Stacked) (t : Token) :
    (s.openRule t).notes.closed = s.notes.closed ++ [.ofSelector t] := by
  have hnew : (s.notes.rules ++ [StyleRule.ofSelector t]).modify s.notes.rules.length (.fill []) =
      s.notes.rules ++ [.ofSelector t] := modify_concat _ _ _
  show fillRules ((s.notes.rules ++ [StyleRule.ofSelector t]).modify s.notes.rules.length (.fill []))
    s.notes.collecting = _
  rw [hnew]
  exact fillRules_concat h.listed _

theorem stacked_openRule (h : s.notes.Stacked) (t : Token) : (s.openRule t).notes.Stacked := by
  rw [openRule_eq]
  refine ⟨List.pairwise_cons.2 ⟨h.listed, h.ordered⟩, ?_⟩
  simp only [List.length_append, List.length_singleton]
  refine List.forall_mem_cons.2 ⟨Nat.lt_succ_self _, fun c hc => ?_⟩
  exact Nat.lt_succ_of_lt (h.listed c hc)

/-- The scope with one more declaration in the innermost block, if this is a rule. -/
def collect (s : Scope) (text : Text) : Scope :=
  match s.frames with
  | ⟨depth, line, .rule slot declarations⟩ :: rest =>
    { s with frames := ⟨depth, line, .rule slot (declarations ++ [text])⟩ :: rest }
  | _ => s

/-- What a line of a style does. A declaration needs a rule right around it. -/
theorem styleLine_eq (s : Scope) (t : Token) :
    s.styleLine t =
      if t.isSelector then .ok (s.openRule t)
      else if (s.top?.bind Block.ruleSlot?).isSome then .ok (s.collect t.text)
      else .error .outsideRule := by
  unfold styleLine Token.isSelector
  split_ifs with hselector hrule
  · rfl
  · rcases s with ⟨m, _ | ⟨⟨depth, line, block⟩, rest⟩⟩
    · cases hrule
    · cases block with
      | rule slot declarations => rfl
      | _ => cases hrule
  · rcases s with ⟨m, _ | ⟨⟨depth, line, block⟩, rest⟩⟩
    · rfl
    · cases block with
      | rule slot declarations => exact absurd rfl hrule
      | _ => rfl

/-- A declaration goes to the rule of the innermost block, in the list of all rules. -/
theorem closed_collect (h : s.notes.Stacked) {slot : Nat} (hs : s.top?.bind Block.ruleSlot? = some slot)
    (text : Text) : (s.collect text).notes.closed = s.notes.closed.modify slot (.declare text) := by
  rcases s with ⟨m, _ | ⟨⟨depth, line, block⟩, rest⟩⟩
  · cases hs
  · cases block with
    | rule slot' declarations =>
      obtain rfl : slot' = slot := Option.some.inj hs
      obtain ⟨hordered, -⟩ := h
      have hother : ∀ c ∈ rest.filterMap fun f => f.block.rule?, c.1 ≠ slot' :=
        fun c hc => Nat.ne_of_lt ((List.pairwise_cons.1 hordered).1 c hc)
      show fillRules (m.styleRules.modify slot' (.fill (declarations ++ [text]))) _ =
        (fillRules (m.styleRules.modify slot' (.fill declarations)) _).modify slot' (.declare text)
      rw [fillRules_modify hother, fillRules_modify hother, List.modify_modify_eq]
      rfl
    | _ => cases hs

theorem slotsOpen_collect (s : Scope) (text : Text) :
    (s.collect text).notes.slotsOpen = s.notes.slotsOpen ∧
      (s.collect text).notes.rules.length = s.notes.rules.length := by
  rcases s with ⟨m, _ | ⟨⟨depth, line, block⟩, rest⟩⟩
  · exact ⟨rfl, rfl⟩
  · cases block <;> exact ⟨rfl, rfl⟩

theorem stacked_collect (h : s.notes.Stacked) (text : Text) : (s.collect text).notes.Stacked := by
  rcases s with ⟨m, _ | ⟨⟨depth, line, block⟩, rest⟩⟩
  · exact h
  · cases block with
    | rule slot declarations =>
      obtain ⟨hordered, hlisted⟩ := h
      exact ⟨List.pairwise_cons.2 ⟨(List.pairwise_cons.1 hordered).1, (List.pairwise_cons.1 hordered).2⟩,
        List.forall_mem_cons.2 ⟨(List.forall_mem_cons.1 hlisted).1, (List.forall_mem_cons.1 hlisted).2⟩⟩
    | _ => exact h

/-! ## Any line -/

/-- Lines outside of styles leave rules alone. -/
theorem rules_dispatch {t : Token} (h : ¬ s.ReachesStyle t) :
    (s.orKeep (s.dispatch t)).notes.rules = s.notes.rules ∧
      (s.orKeep (s.dispatch t)).notes.collecting = s.notes.collecting := by
  by_cases hv : s.InView ∧ isViewCategory t.category
  · rw [dispatch_inView hv.1 hv.2, notes_nodeLine]
    exact ⟨rfl, rfl⟩
  · cases hline : s.dispatch t with
    | ok s' =>
      rw [orKeep, notes_dispatch hv h hline]
      exact ⟨rfl, rfl⟩
    | error reason => exact ⟨rfl, rfl⟩

/-- What a line does to the rules that are there, and will be once the open ones are closed. -/
theorem closed_dispatch (h : s.notes.Stacked) (t : Token) :
    (s.orKeep (s.dispatch t)).notes.closed =
      if s.ReachesStyle t then
        if t.isSelector then s.notes.closed ++ [.ofSelector t]
        else (s.top?.bind Block.ruleSlot?).elim s.notes.closed
          fun slot => s.notes.closed.modify slot (.declare t.text)
      else s.notes.closed := by
  split_ifs with hr hselector
  · rw [dispatch_inStyle hr, styleLine_eq, if_pos hselector]
    exact closed_openRule h t
  · rw [dispatch_inStyle hr, styleLine_eq, if_neg hselector]
    cases hslot : s.top?.bind Block.ruleSlot? with
    | none => rfl
    | some slot => exact closed_collect h hslot t.text
  · obtain ⟨hrules, hcollecting⟩ := rules_dispatch hr
    rw [Notes.closed, hrules, hcollecting]
    rfl

theorem dispatch_openRule {t : Token} (h : s.OpensRule t) : s.dispatch t = .ok (s.openRule t) := by
  rw [dispatch_inStyle h.1, styleLine_eq, if_pos h.2]

/-- Only a selector opens a rule. -/
theorem slotsOpen_dispatch {t : Token} (h : ¬ s.OpensRule t) :
    (s.orKeep (s.dispatch t)).notes.slotsOpen = s.notes.slotsOpen ∧
      (s.orKeep (s.dispatch t)).notes.rules.length = s.notes.rules.length := by
  by_cases hr : s.ReachesStyle t
  · rw [dispatch_inStyle hr, styleLine_eq, if_neg fun hselector => h ⟨hr, hselector⟩]
    split_ifs
    · exact slotsOpen_collect s t.text
    · exact ⟨rfl, rfl⟩
  · rw [Notes.slotsOpen, (rules_dispatch hr).1, (rules_dispatch hr).2]
    exact ⟨rfl, rfl⟩

theorem stacked_dispatch (h : s.notes.Stacked) (t : Token) :
    (s.orKeep (s.dispatch t)).notes.Stacked := by
  by_cases hr : s.ReachesStyle t
  · rw [dispatch_inStyle hr, styleLine_eq]
    split_ifs
    · exact stacked_openRule h t
    · exact stacked_collect h t.text
    · exact h
  · obtain ⟨hrules, hcollecting⟩ := rules_dispatch hr
    constructor
    · rw [hcollecting]
      exact h.ordered
    · rw [hcollecting, hrules]
      exact h.listed

end

/-- Around every token, open rules are in the list, each after those around it. -/
theorem stacked_around {ts : List Token} {i : Nat} (hi : i ≤ ts.length) :
    (around ts i).notes.Stacked := by
  refine around_induction (I := fun s => s.notes.Stacked) ⟨List.Pairwise.nil, by rintro c ⟨⟩⟩
    (fun s => stacked_closeTop) (fun i t s' _ h hline => ?_) hi
  have := stacked_dispatch h t
  rwa [hline] at this

end Scope

end ComponentLang
