import ComponentLang.Proofs.Scope.Enclosing
import ComponentLang.Proofs.Style.Open

/-!
# Style rules and their lines

* `styleAt?`, `opensRuleAt` : the line of a style at a position, and if it opens a rule;
* `opener?` : the position of the token that has opened the innermost block around a position;
* `declarationIn? ts i j` : what the token at `j` declares right in the block of the token at `i`;
* `ruleAt? ts n i` : the rule that the token at `i` opens, with its lines among the first `n` tokens;
* `noticeAt?` : the notice on the token at a position, if it is dropped;
* `head?_outline_around`, `ruleSlot?_around` : the innermost block is that of `opener?`, and its place
  in the list is the number of rules opened before;
* `closed_around` : the rules along a run are those of `ruleAt?`, once the open ones are closed;
* `styleRules_buildManifest` : the rules of a manifest, and the lines of styles that are dropped.
-/

namespace ComponentLang

/-- The line of a style at a position, if there is one. -/
def styleAt? (ts : List Token) (i : Nat) : Option Token :=
  ts[i]?.filter fun t => (Scope.around ts i).ReachesStyle t

/-- The token at a position opens a style rule. -/
def opensRuleAt (ts : List Token) (i : Nat) : Bool := ts[i]?.any fun t => (Scope.around ts i).OpensRule t

/-- The position of the token that has opened the innermost block around the position `i`: the last
that encloses it and has opened a block. -/
def opener? (ts : List Token) (i : Nat) : Option Nat :=
  ((List.range i).filter (Encloses ts · i)).reverse.find? fun k => !(Scope.pushedAt ts k).isEmpty

/-- What the token at `j` declares right in the block that the token at `i` has opened. -/
def declarationIn? (ts : List Token) (i j : Nat) : Option Text :=
  if opener? ts j = some i then ((styleAt? ts j).filter (! ·.isSelector)).map Token.text else none

/-- The rule that the token at `i` opens, with its declarations among the first `n` tokens. -/
def ruleAt? (ts : List Token) (n i : Nat) : Option StyleRule :=
  ((styleAt? ts i).filter Token.isSelector).map fun t =>
    (StyleRule.ofSelector t).fill ((List.range n).filterMap (declarationIn? ts i))

/-- The notice on the token at a position. -/
def noticeAt? (ts : List Token) (i : Nat) : Option Notice :=
  ts[i]?.bind fun t => ((Scope.before ts i).step t).2

/-! ## Notices -/

theorem runNotices_take {ts : List Token} {k : Nat} (hk : k ≤ ts.length) :
    Scope.start.runNotices (ts.take k) = (List.range k).filterMap (noticeAt? ts) := by
  induction k with
  | zero => rfl
  | succ k ih =>
    have ht : ts[k]? = some ts[k] := List.getElem?_eq_getElem (by omega)
    have hlast : noticeAt? ts k = ((Scope.before ts k).step ts[k]).2 := by
      rw [noticeAt?, ht, Option.bind_some]
    rw [List.take_add_one, ht, Option.toList, Scope.runNotices_append, ih (by omega),
      filterMap_range_succ, hlast]
    exact congrArg (_ ++ ·) (List.append_nil _)

/-! ## The innermost block -/

theorem findSome?_getLast? {α β : Type} (f : α → List β) (l : List α) :
    l.findSome? (fun a => (f a).getLast?) =
      (l.find? fun a => !(f a).isEmpty).bind fun a => (f a).getLast? := by
  induction l with
  | nil => rfl
  | cons a l ih =>
    cases hf : f a with
    | nil => simp [hf, ih]
    | cons b rest => simp [hf, List.getLast?_cons]

theorem head?_outline_around {ts : List Token} {i : Nat} (hi : i ≤ ts.length) :
    (Scope.around ts i).outline.head? = (opener? ts i).bind fun k => (Scope.pushedAt ts k).getLast? := by
  rw [← List.getLast?_reverse, (Scope.told hi).outline_around hi, List.getLast?_flatMap,
    findSome?_getLast?]
  rfl

theorem lt_of_opener? {ts : List Token} {i k : Nat} (h : opener? ts i = some k) : k < i := by
  have hmem := List.mem_of_find?_eq_some h
  rw [List.mem_reverse] at hmem
  exact List.mem_range.1 (List.mem_filter.1 hmem).1

/-! ## Rules that are opened -/

/-- The number of rules that are opened before a position. -/
def rulesBefore (ts : List Token) (i : Nat) : Nat := (List.range i).countP (opensRuleAt ts)

theorem rulesBefore_succ {ts : List Token} {i : Nat} {t : Token} (ht : ts[i]? = some t) :
    rulesBefore ts (i + 1) =
      rulesBefore ts i + if (Scope.around ts i).OpensRule t then 1 else 0 := by
  rw [rulesBefore, List.range_succ, List.countP_append, List.countP_singleton, opensRuleAt, ht,
    Option.any_some, ← rulesBefore]
  simp only [decide_eq_true_eq]

theorem length_rules_around {ts : List Token} {i : Nat} (hi : i ≤ ts.length) :
    (Scope.around ts i).notes.rules.length = rulesBefore ts i := by
  refine Scope.around_rec (P := fun i s => s.notes.rules.length = rulesBefore ts i) rfl ?_ ?_ hi
  · intro i s h
    rcases Scope.notes_closeTop s with heq | ⟨slot, declarations, rest, _, heq⟩ <;> rw [heq]
    · exact h
    · exact (List.length_modify _ _ _).trans h
  · intro i t ht h
    rw [Scope.before_succ_eq_orKeep ht, rulesBefore_succ ht, ← h]
    split_ifs with hopens
    · rw [Scope.dispatch_openRule hopens]
      exact List.length_append
    · exact (Scope.slotsOpen_dispatch hopens).2

/-- The places of the rules that a token opens. -/
theorem ruleSlots_pushedAt {ts : List Token} {k : Nat} (hk : k < ts.length) :
    (Scope.pushedAt ts k).filterMap (fun f => f.block.ruleSlot?) =
      if opensRuleAt ts k then [rulesBefore ts k] else [] := by
  have ht : ts[k]? = some ts[k] := List.getElem?_eq_getElem hk
  have hsplit := Scope.slotsOpen_eq (Scope.before ts (k + 1))
  rw [(Scope.pushedAt_cases ht).1, List.filterMap_append, ← Scope.slotsOpen_eq,
    Scope.before_succ_eq_orKeep ht] at hsplit
  rw [opensRuleAt, ht, Option.any_some, ← length_rules_around hk.le]
  by_cases hopens : (Scope.around ts k).OpensRule ts[k]
  · rw [Scope.dispatch_openRule hopens] at hsplit
    rw [if_pos (decide_eq_true hopens)]
    exact (List.append_cancel_right hsplit).symm
  · rw [(Scope.slotsOpen_dispatch hopens).1] at hsplit
    rw [if_neg (by simpa using hopens)]
    exact List.self_eq_append_left.1 hsplit

/-- The rule that is innermost around a token, if one is, was opened by the `opener?`. -/
theorem ruleSlot?_around {ts : List Token} {i : Nat} (hi : i ≤ ts.length) :
    (Scope.around ts i).top?.bind Block.ruleSlot? =
      (opener? ts i).bind fun k => if opensRuleAt ts k then some (rulesBefore ts k) else none := by
  rw [Scope.ruleSlot?_top, head?_outline_around hi, Option.bind_assoc]
  cases hk : opener? ts i with
  | none => rfl
  | some k =>
    have hlt : k < ts.length := Nat.lt_of_lt_of_le (lt_of_opener? hk) hi
    have hslots := congrArg List.head? (ruleSlots_pushedAt hlt)
    have hone : (Scope.pushedAt ts k).getLast?.bind (fun f => f.block.ruleSlot?) =
        ((Scope.pushedAt ts k).filterMap fun f => f.block.ruleSlot?).head? := by
      rcases (Scope.pushedAt_cases (List.getElem?_eq_getElem hlt)).2 with h | ⟨block, h⟩ <;> rw [h]
      · rfl
      · cases hb : block.ruleSlot? <;> simp [hb]
    rw [Option.bind_some, Option.bind_some, hone, hslots]
    split_ifs <;> rfl

/-! ## Rules along a run -/

theorem styleAt?_eq {ts : List Token} {i : Nat} {t : Token} (ht : ts[i]? = some t) :
    styleAt? ts i = if (Scope.around ts i).ReachesStyle t then some t else none := by
  rw [styleAt?, ht]
  by_cases hr : (Scope.around ts i).ReachesStyle t <;> simp [Option.filter, hr]

theorem isSome_ruleAt? (ts : List Token) (n i : Nat) : (ruleAt? ts n i).isSome = opensRuleAt ts i := by
  cases ht : ts[i]? with
  | none => simp [ruleAt?, styleAt?, opensRuleAt, ht]
  | some t =>
    rw [ruleAt?, styleAt?_eq ht, opensRuleAt, ht, Option.any_some, Option.isSome_map]
    by_cases hr : (Scope.around ts i).ReachesStyle t <;>
      cases hselector : t.isSelector <;> simp [Scope.OpensRule, Option.filter, hr, hselector]

/-- A token declares in blocks that are open before it. -/
theorem declarationIn?_of_le {ts : List Token} {i j : Nat} (h : j ≤ i) : declarationIn? ts i j = none := by
  rw [declarationIn?, if_neg]
  intro hopener
  have := lt_of_opener? hopener
  omega

/-- A line of a style declares in the block around it, unless it is a selector. -/
theorem declarationIn?_of_styleAt? {ts : List Token} {j : Nat} {t : Token} (h : styleAt? ts j = some t)
    (i : Nat) :
    declarationIn? ts i j =
      if t.isSelector then none else if opener? ts j = some i then some t.text else none := by
  cases hselector : t.isSelector <;> simp [declarationIn?, h, Option.filter, hselector]

/-- One more token adds at most its own text. -/
theorem ruleAt?_succ (ts : List Token) (n i : Nat) :
    ruleAt? ts (n + 1) i = (declarationIn? ts i n).elim (ruleAt? ts n i) fun text =>
      (ruleAt? ts n i).map (.declare text) := by
  unfold ruleAt?
  rw [filterMap_range_succ]
  cases declarationIn? ts i n with
  | none => rw [Option.toList_none, List.append_nil, Option.elim_none]
  | some text =>
    rw [Option.elim_some, Option.map_map]
    rfl

/-- The rules that the first `n` tokens open, with the declarations that these tokens make. -/
def rulesRead (ts : List Token) (n : Nat) : List StyleRule := (List.range n).filterMap (ruleAt? ts n)

/-- A change of what stands at one position. -/
theorem filterMap_range_modify {α : Type} {f : α → α} {g g' : Nat → Option α} {k n : Nat} (hk : k < n)
    (hsome : (g k).isSome) (hat : g' k = (g k).map f) (hother : ∀ j, j ≠ k → g' j = g j) :
    (List.range n).filterMap g' =
      ((List.range n).filterMap g).modify ((List.range k).countP fun j => (g j).isSome) f := by
  obtain ⟨m, rfl⟩ : ∃ m, n = k + 1 + m := ⟨n - (k + 1), by omega⟩
  obtain ⟨a, ha⟩ := Option.isSome_iff_exists.1 hsome
  have hcongr : ∀ l : List Nat, k ∉ l → l.filterMap g' = l.filterMap g := fun l hl =>
    List.filterMap_congr fun j hj => hother j fun heq => hl (heq ▸ hj)
  have hbefore := hcongr (List.range k) List.not_mem_range_self
  have hafter := hcongr ((List.range m).map (k + 1 + ·)) (by simp; omega)
  have hlast : [k].filterMap g = [a] := by simp [ha]
  have hlast' : [k].filterMap g' = [f a] := by simp [hat, ha]
  simp only [List.range_add, List.range_succ, List.filterMap_append]
  rw [hbefore, hafter, hlast, hlast', ← List.length_filterMap_eq_countP, modify_append_of_lt (by simp),
    Scope.modify_concat]

/-- What one more token does to the rules. -/
theorem rulesRead_succ {ts : List Token} {i : Nat} {t : Token} (ht : ts[i]? = some t) :
    rulesRead ts (i + 1) =
      if (Scope.around ts i).ReachesStyle t then
        if t.isSelector then rulesRead ts i ++ [.ofSelector t]
        else ((opener? ts i).bind fun k =>
            if opensRuleAt ts k then some (rulesBefore ts k) else none).elim (rulesRead ts i)
          fun slot => (rulesRead ts i).modify slot (.declare t.text)
      else rulesRead ts i := by
  have hsplit : rulesRead ts (i + 1) =
      (List.range i).filterMap (ruleAt? ts (i + 1)) ++ (ruleAt? ts (i + 1) i).toList :=
    filterMap_range_succ _ _
  have hsame : (∀ k, declarationIn? ts k i = none) →
      (List.range i).filterMap (ruleAt? ts (i + 1)) = rulesRead ts i := fun hnone =>
    List.filterMap_congr fun k _ => by rw [ruleAt?_succ, hnone k, Option.elim_none]
  have hstyle := styleAt?_eq ht
  rw [hsplit]
  split_ifs with hr hselector
  · -- a selector adds a rule, and declares nothing
    rw [if_pos hr] at hstyle
    have hnone : ∀ j ∈ List.range (i + 1), declarationIn? ts i j = none := fun j hj =>
      declarationIn?_of_le (Nat.lt_succ_iff.1 (List.mem_range.1 hj))
    have hself : ruleAt? ts (i + 1) i = some (.ofSelector t) := by
      rw [ruleAt?, hstyle, List.filterMap_eq_nil_iff.2 hnone]
      simp [Option.filter, hselector, StyleRule.fill, StyleRule.ofSelector]
    rw [hself, hsame fun k => by rw [declarationIn?_of_styleAt? hstyle, if_pos hselector]]
    rfl
  · rw [if_pos hr] at hstyle
    have hself : ∀ n, ruleAt? ts n i = none := fun n => by
      simp [ruleAt?, hstyle, Option.filter, hselector]
    have hdeclares : ∀ k, declarationIn? ts k i = if opener? ts i = some k then some t.text else none :=
      fun k => by rw [declarationIn?_of_styleAt? hstyle, if_neg hselector]
    rw [hself, Option.toList_none, List.append_nil]
    cases hopener : opener? ts i with
    | none => exact hsame fun k => by rw [hdeclares, hopener, if_neg (by simp)]
    | some k =>
      have hother : ∀ j, j ≠ k → ruleAt? ts (i + 1) j = ruleAt? ts i j := fun j hj => by
        rw [ruleAt?_succ, hdeclares, hopener, if_neg fun heq => hj (Option.some.inj heq).symm,
          Option.elim_none]
      have hat : ruleAt? ts (i + 1) k = (ruleAt? ts i k).map (.declare t.text) := by
        rw [ruleAt?_succ, hdeclares, hopener, if_pos rfl, Option.elim_some]
      rw [Option.bind_some]
      split_ifs with hopens
      · have hmodify := filterMap_range_modify (lt_of_opener? hopener)
          (by rw [isSome_ruleAt?]; exact hopens) hat hother
        simp only [isSome_ruleAt?] at hmodify
        exact hmodify
      · -- the block around the token is no rule, so its text is in none
        refine List.filterMap_congr fun j _ => ?_
        by_cases hj : j = k
        · have hnone : ruleAt? ts i k = none := by
            rw [← Option.not_isSome_iff_eq_none, isSome_ruleAt?]
            exact hopens
          rw [hj, hat, hnone, Option.map_none]
        · exact hother j hj
  · rw [if_neg hr] at hstyle
    rw [hsame fun k => by simp [declarationIn?, hstyle], ruleAt?, hstyle]
    exact List.append_nil _

/-- The rules along a run are those that its tokens open, once the open ones are closed. -/
theorem closed_around {ts : List Token} {i : Nat} (hi : i ≤ ts.length) :
    (Scope.around ts i).notes.closed = rulesRead ts i := by
  refine Scope.around_rec (P := fun i s => s.notes.closed = rulesRead ts i) rfl ?_ ?_ hi
  · exact fun i s h => (Scope.closed_closeTop s).trans h
  · intro i t ht h
    have hi : i ≤ ts.length := (List.getElem?_eq_some_iff.1 ht).1.le
    rw [Scope.before_succ_eq_orKeep ht, Scope.closed_dispatch (Scope.stacked_around hi), h,
      ruleSlot?_around hi, rulesRead_succ ht]

/-! ## Rules in a manifest -/

/-- A line of a style opens a rule, or is a declaration of one, or is dropped. -/
theorem noticeAt?_of_styleAt? {ts : List Token} {j : Nat} {t : Token} (h : styleAt? ts j = some t) :
    noticeAt? ts j =
      if t.isSelector || (opener? ts j).any (opensRuleAt ts) then none
      else some (.dropped t.line t.text .outsideRule) := by
  obtain ⟨ht, hr⟩ := Option.filter_eq_some_iff.1 h
  have hr : (Scope.around ts j).ReachesStyle t := of_decide_eq_true hr
  have hj : j ≤ ts.length := (List.getElem?_eq_some_iff.1 ht).1.le
  have hrule : ((Scope.around ts j).top?.bind Block.ruleSlot?).isSome =
      (opener? ts j).any (opensRuleAt ts) := by
    rw [ruleSlot?_around hj]
    cases opener? ts j with
    | none => rfl
    | some k => cases hk : opensRuleAt ts k <;> simp [hk]
  rw [noticeAt?, ht, Option.bind_some, Scope.step, ← Scope.around_eq ht, Scope.dispatch_inStyle hr,
    Scope.styleLine_eq, hrule]
  cases t.isSelector <;> cases (opener? ts j).any (opensRuleAt ts) <;> rfl

/-- A line of a style that opens no rule is in one rule, and kept, or in none, and dropped. -/
theorem declared_or_dropped {ts : List Token} {j : Nat} {t : Token} (h : styleAt? ts j = some t)
    (hselector : ¬ t.isSelector) :
    (∃ i, opensRuleAt ts i ∧ declarationIn? ts i j = some t.text ∧ noticeAt? ts j = none) ∨
      ((∀ i, opensRuleAt ts i → declarationIn? ts i j = none) ∧
        noticeAt? ts j = some (.dropped t.line t.text .outsideRule)) := by
  have hselector : t.isSelector = false := Bool.eq_false_iff.2 hselector
  simp only [noticeAt?_of_styleAt? h, declarationIn?_of_styleAt? h, hselector, Bool.false_or,
    Bool.false_eq_true, if_false]
  cases hopener : opener? ts j with
  | none => exact Or.inr ⟨fun i _ => if_neg (by simp), rfl⟩
  | some k =>
    rw [Option.any_some]
    by_cases hk : opensRuleAt ts k
    · exact Or.inl ⟨k, hk, if_pos rfl, if_pos hk⟩
    · refine Or.inr ⟨fun i hi => if_neg ?_, if_neg hk⟩
      rintro ⟨⟩
      exact hk hi

/-- **Style rules collect their own lines.** A manifest has one rule for each line of a style that ends
in a colon, in the order of the lines. Its selector is the line without the colon, trimmed, and its
declarations are the other lines of styles that stand right in its block, in order. Each token is
dropped with one notice at most. Of the lines of styles those are dropped that neither end in a colon
nor stand right in the block of a rule, and these are in no rule. -/
theorem styleRules_buildManifest (ts : List Token) (hd : ∀ t ∈ ts, 0 ≤ t.depth) (c : Companions) :
    (buildManifest ts c).styleRules = (List.range ts.length).filterMap (ruleAt? ts ts.length) ∧
    buildNotices ts c = (List.range ts.length).filterMap (noticeAt? ts) ++
      [(buildManifest ts c).builtNotice] ∧
    ∀ j t, styleAt? ts j = some t →
      if t.isSelector then noticeAt? ts j = none
      else
        (∃ i, opensRuleAt ts i ∧ declarationIn? ts i j = some t.text ∧ noticeAt? ts j = none) ∨
          ((∀ i, opensRuleAt ts i → declarationIn? ts i j = none) ∧
            noticeAt? ts j = some (.dropped t.line t.text .outsideRule)) := by
  refine ⟨?_, ?_, fun j t h => ?_⟩
  · have hclosed := closed_around (Nat.le_refl ts.length)
    -- at the end no rule is open
    rw [Notes.closed, Scope.notes, Scope.frames_around_length hd] at hclosed
    rw [Scope.buildManifest_eq_around]
    exact hclosed
  · have hnotices := runNotices_take (Nat.le_refl ts.length)
    rw [List.take_length] at hnotices
    rw [buildNotices, hnotices]
  · split_ifs with hselector
    · rw [noticeAt?_of_styleAt? h, hselector]
      rfl
    · exact declared_or_dropped h hselector

/-- A style in which a rule stands inside of another one, which goes on after it. The first line stands
in no rule, and a view in the outer rule holds a mark. -/
def wardrobe : List Token := [
  ⟨1, 0, .style, "style:".toList, "style:".toList, 0⟩,
  ⟨2, 4, .expression, "margin: 0".toList, "    margin: 0".toList, 1⟩,
  ⟨3, 4, .expression, ".card :".toList, "    .card :".toList, 1⟩,
  ⟨4, 8, .expression, "color: red".toList, "        color: red".toList, 2⟩,
  ⟨5, 8, .expression, ".title:".toList, "        .title:".toList, 2⟩,
  ⟨6, 12, .expression, "font: bold".toList, "            font: bold".toList, 3⟩,
  ⟨7, 8, .view, "view:".toList, "        view:".toList, 2⟩,
  ⟨8, 12, .element, "hr".toList, "            hr".toList, 3⟩,
  ⟨9, 8, .expression, "padding: 0".toList, "        padding: 0".toList, 2⟩]

/-- Both rules have their own lines, the mark is in none, and the first line is dropped. -/
theorem styleRules_buildManifest_wardrobe :
    (buildManifest wardrobe {}).styleRules = [
      ⟨".card".toList, ["color: red".toList, "padding: 0".toList], 3⟩,
      ⟨".title".toList, ["font: bold".toList], 5⟩] ∧
    noticeAt? wardrobe 1 = some (.dropped 2 "margin: 0".toList .outsideRule) := by
  have h := styleRules_buildManifest wardrobe (by decide) {}
  refine ⟨h.1.trans (by decide), ?_⟩
  have hline := h.2.2 1 wardrobe[1] (by decide)
  rw [if_neg (by decide)] at hline
  rcases hline with ⟨_, _, _, hnone⟩ | ⟨-, hdropped⟩
  · exact absurd hnone (by decide)
  · exact hdropped

end ComponentLang
