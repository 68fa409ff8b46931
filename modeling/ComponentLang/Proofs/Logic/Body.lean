import ComponentLang.Proofs.Scope.Growth

/-!
# Bodies of logic

* `logicItems` : the body that a run of tokens makes, read by recursion. A conditional header takes
  the deeper tokens after it as a body of its own;
* `closeTo_run_under` : a block closes over what the tokens under its header have left in it;
* `run_inLogic` : in a block of logic, tokens that are deeper than the block add the body that they
  make, and nothing else happens;
* `headText`, `run_inHead` : in a head, such tokens add their lines to the head, and nothing else
  happens.
-/

namespace ComponentLang

/-- The body that tokens make. A conditional header takes the deeper tokens after it as a body of
its own. Of all other tokens but assertions the text is kept, whatever their category. -/
def logicItems : List Token → List LogicItem
  | [] => []
  | t :: ts =>
    if t.category = .control && isLogicBlock t.text then
      .block t.text (logicItems (Scope.under t ts)) t.line :: logicItems (Scope.past t ts)
    else if t.category = .assertion then
      .assertion (Text.trim (Text.dropLead "must".toList t.text)) t.line :: logicItems ts
    else .line t.text t.line :: logicItems ts
termination_by ts => ts.length
decreasing_by
  · exact Nat.lt_succ_of_le (Scope.length_under_le t ts)
  · exact Nat.lt_succ_of_le (Scope.length_past_le t ts)
  · exact Nat.lt_succ_self _
  · exact Nat.lt_succ_self _

namespace Scope

/-! ## Closing over the tokens under a header -/

/-- If the tokens under a header leave the block that it has opened on `s` as `block`, then this
block is what closes over `s` after them. -/
theorem closeTo_run_under {s s₁ : Scope} {t : Token} {ts : List Token} {block : Block}
    (hs : ∀ f ∈ s.outline.head?, f.depth < t.depth)
    (hunder : (s₁.run (under t ts)).closeTo (t.depth + 1) = s.push t block) :
    (s₁.run (under t ts)).closeTo t.depth = publish ⟨t.depth, t.line, block⟩ s := by
  have htop : (s.push t block).closeTop = publish ⟨t.depth, t.line, block⟩ s := rfl
  rw [← closeTo_closeTo (show t.depth ≤ t.depth + 1 by omega), hunder,
    closeTo_of_le (show (s.push t block).frames = ⟨t.depth, t.line, block⟩ :: s.frames from rfl)
      (Int.le_refl _), htop, closeTo_of_lt]
  rwa [outline_publish]

/-- Closing stops right below the depth of the innermost block. -/
theorem closeTo_succ {s : Scope} {d : Int} (hd : ∀ f ∈ s.outline.head?, f.depth = d) :
    s.closeTo (d + 1) = s :=
  closeTo_of_lt fun f hf => by
    have := hd f hf
    omega

/-! ## Lists of items -/

theorem mapBody_mapBody (f g : List LogicItem → List LogicItem) (s : Scope) :
    (s.mapBody f).mapBody g = s.mapBody (g ∘ f) := by
  rcases s with ⟨m, _ | ⟨⟨depth, line, block⟩, rest⟩⟩
  · rfl
  · cases block <;> rfl

theorem mapBody_id (s : Scope) : s.mapBody (· ++ []) = s := by
  rcases s with ⟨m, _ | ⟨⟨depth, line, block⟩, rest⟩⟩
  · simp [mapBody]
  · cases block <;> simp [mapBody]

theorem mapBody_congr {f g : List LogicItem → List LogicItem} {s : Scope}
    (h : f s.body = g s.body) : s.mapBody f = s.mapBody g := by
  rcases s with ⟨m, _ | ⟨⟨depth, line, block⟩, rest⟩⟩
  · simp only [mapBody]
    exact congrArg (fun l => (⟨{ m with lifecycle := l }, []⟩ : Scope)) h
  · cases block <;> simp_all [mapBody, body]

/-- A block takes the place of the last item when it closes. -/
theorem publish_nested (s : Scope) (t : Token) (items : List LogicItem) :
    publish ⟨t.depth, t.line, .logic (.nested s.body.length) items⟩
        (s.appendItem (.block t.text [] t.line)) =
      s.appendItem (.block t.text items t.line) := by
  show (s.appendItem (.block t.text [] t.line)).mapBody
    (·.modify s.body.length (LogicItem.setBody items)) = _
  rw [appendItem, appendItem, mapBody_mapBody]
  exact mapBody_congr (modify_concat _ _ _)

/-! ## Lines of logic -/

theorem inLogic_mapBody (f : List LogicItem → List LogicItem) (s : Scope) :
    (s.mapBody f).InLogic ↔ s.InLogic := by
  rcases s with ⟨m, _ | ⟨⟨depth, line, block⟩, rest⟩⟩
  · rfl
  · cases block <;> rfl

theorem dispatch_inLogic {s : Scope} (hs : s.InLogic) (t : Token) :
    s.dispatch t = .ok (s.logicLine t) := by
  unfold dispatch
  unfold InLogic at hs
  generalize s.top? = top at hs ⊢
  cases top with
  | none => cases hs
  | some block =>
    cases block with
    | mount => rfl
    | logic owner items => rfl
    | _ => cases hs

/-- The innermost block takes lines of logic, and is of the given depth. -/
structure Bodied (s : Scope) (d : Int) : Prop where
  inLogic : s.InLogic
  depth : ∀ f ∈ s.outline.head?, f.depth = d

theorem Bodied.mapBody {s : Scope} {d : Int} (h : s.Bodied d)
    (f : List LogicItem → List LogicItem) : (s.mapBody f).Bodied d :=
  ⟨(inLogic_mapBody f s).2 h.inLogic, by rw [outline_mapBody]; exact h.depth⟩

theorem bodied_push (s : Scope) (t : Token) {block : Block} (hb : block.isLogic) :
    (s.push t block).Bodied t.depth :=
  ⟨hb, by simp⟩

/-- A token deeper than the innermost block, which takes logic, closes nothing. -/
theorem Bodied.step {s : Scope} {d : Int} (h : s.Bodied d) {t : Token} (ht : d < t.depth) :
    (s.step t).1 = s.logicLine t := by
  have hclose : s.closeTo t.depth = s := closeTo_of_lt fun f hf => by
    rw [h.depth f hf]
    exact ht
  unfold Scope.step
  rw [hclose, dispatch_inLogic h.inLogic]

/-- **Logic is read by recursion.** Tokens deeper than the innermost block add to it the body that
they make, once the blocks inside of it are closed. -/
theorem run_inLogic {s : Scope} {d : Int} (hs : s.Bodied d) (ts : List Token)
    (hts : ∀ t ∈ ts, d < t.depth) :
    (s.run ts).closeTo (d + 1) = s.mapBody (· ++ logicItems ts) := by
  induction ts using logicItems.induct generalizing s d with
  | case1 =>
    rw [logicItems, mapBody_id]
    exact closeTo_succ hs.depth
  | case2 t ts hblock ihunder ihpast =>
    have ht : d < t.depth := hts t (by simp)
    -- the deeper tokens fill the block that the header opens
    have hbodied : ((s.appendItem (.block t.text [] t.line)).push t
        (.logic (.nested s.body.length) [])).Bodied t.depth := bodied_push _ t rfl
    have hinner : _ = (s.appendItem (.block t.text [] t.line)).push t
        (.logic (.nested s.body.length) (logicItems (under t ts))) :=
      ihunder hbodied fun u hu => depth_of_mem_under hu
    have hshallow : ∀ f ∈ (s.appendItem (.block t.text [] t.line)).outline.head?,
        f.depth < t.depth := by
      rw [outline_appendItem]
      intro f hf
      rw [hs.depth f hf]
      exact ht
    have hclosed := closeTo_run_under hshallow hinner
    rw [publish_nested] at hclosed
    -- the tokens past them go on after the finished block
    have houter := ihpast (hs.mapBody (· ++ [.block t.text (logicItems (under t ts)) t.line]))
      fun u hu => hts u (List.mem_cons_of_mem t (mem_of_mem_past hu))
    rw [run, hs.step ht, logicLine, if_pos hblock, ← under_append_past t ts, run_append,
      closeTo_run_eq (show d + 1 ≤ t.depth by omega) fun u hu => depth_of_mem_head_past hu,
      under_append_past, hclosed, appendItem, houter, mapBody_mapBody, logicItems, if_pos hblock]
    simp [Function.comp_def]
  | case3 t ts hblock hassertion ih =>
    have ht : d < t.depth := hts t (by simp)
    rw [run, hs.step ht, logicLine, if_neg hblock, if_pos hassertion, appendItem,
      ih (hs.mapBody _) fun u hu => hts u (List.mem_cons_of_mem t hu), mapBody_mapBody, logicItems,
      if_neg hblock, if_pos hassertion]
    simp [Function.comp_def]
  | case4 t ts hblock hassertion ih =>
    have ht : d < t.depth := hts t (by simp)
    rw [run, hs.step ht, logicLine, if_neg hblock, if_neg hassertion, appendItem,
      ih (hs.mapBody _) fun u hu => hts u (List.mem_cons_of_mem t hu), mapBody_mapBody, logicItems,
      if_neg hblock, if_neg hassertion]
    simp [Function.comp_def]

/-! ## Lines of heads -/

/-- The line that a token adds to a head at the depth `depth`. -/
def headText (depth : Int) (t : Token) : Text :=
  List.replicate (headBlanks depth t) ' ' ++ t.text

/-- Tokens deeper than a head add their lines to it. -/
theorem run_inHead (s : Scope) {t : Token} (lines : List Text) (ts : List Token)
    (hts : ∀ u ∈ ts, t.depth < u.depth) :
    (s.push t (.head lines)).run ts = s.push t (.head (lines ++ ts.map (headText t.depth))) := by
  induction ts generalizing lines with
  | nil => simp [run]
  | cons u ts ih =>
    have hu : t.depth < u.depth := hts u (by simp)
    have hclose : (s.push t (.head lines)).closeTo u.depth = s.push t (.head lines) :=
      closeTo_of_lt (by simpa using hu)
    have hstep : ((s.push t (.head lines)).step u).1 =
        s.push t (.head (lines ++ [headText t.depth u])) := by
      rw [Scope.step, hclose]
      rfl
    rw [run, hstep, ih _ fun v hv => hts v (List.mem_cons_of_mem u hv)]
    simp

end Scope

end ComponentLang
