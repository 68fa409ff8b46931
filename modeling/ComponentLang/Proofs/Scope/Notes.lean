import ComponentLang.Proofs.Scope.Sketch
import ComponentLang.Proofs.View.Line

/-!
# What a scope notes besides its trees

References, slots and style rules are listed in the manifest, apart from the trees of nodes and logic.

* `Notes`, `Scope.notes` : these lists, and what the open style rules have collected so far;
* `notes_closeTop` : a block that closes leaves them alone, unless it is a rule;
* `Scope.ReachesStyle s t` : the token `t`, in the scope `s`, is a line of a style;
* `Token.markup?` : what a line among nodes says if it is markup;
* `notes_nodeLine` : a line among nodes notes the reference or slot that it names, and nothing else;
* `notes_dispatch` : lines that belong neither to a view nor to a style note nothing.
-/

namespace ComponentLang

/-- The names and style rules that are noted, and the open rules from the innermost on: the place of
each in the list, and its declarations so far. -/
structure Notes where
  refs : List Text
  slots : List Text
  rules : List StyleRule
  collecting : List (Nat × List Text)

/-- The place and the declarations of a style rule. -/
def Block.rule? : Block → Option (Nat × List Text)
  | .rule slot declarations => some (slot, declarations)
  | _ => none

/-- The block takes lines of a style. -/
def Block.isStyle : Block → Bool
  | .style | .rule _ _ => true
  | _ => false

/-- What the line says among the nodes of a view, if it is markup. -/
def Token.markup? (t : Token) : Option Markup :=
  if t.category ≠ .control ∧ (t.category = .element || Scope.isSlotLine t.text) then
    some (Markup.parse t.text)
  else none

/-- The reference that a markup line gives to its element. -/
def Markup.ref? : Markup → Option Text
  | .slot _ _ => none
  | .element e => e.ref

/-- The slot that a markup line declares. -/
def Markup.slot? : Markup → Option Text
  | .slot name _ => some name
  | .element _ => none

/-- Adds a name, if there is one, to a list that holds each once. -/
def Manifest.note (name? : Option Text) (names : List Text) : List Text :=
  name?.elim names (register · names)

namespace Scope

def notes (s : Scope) : Notes where
  refs := s.manifest.refs
  slots := s.manifest.slots
  rules := s.manifest.styleRules
  collecting := s.frames.filterMap fun f => f.block.rule?

/-- The innermost block takes lines of a style. -/
def InStyle (s : Scope) : Prop := s.top?.any Block.isStyle

/-- The line belongs to a style: it is of no other use, and the innermost block takes such lines. -/
def ReachesStyle (s : Scope) (t : Token) : Prop := s.InStyle ∧ isViewCategory t.category

instance (s : Scope) (t : Token) : Decidable (s.ReachesStyle t) :=
  inferInstanceAs (Decidable (_ = true ∧ _))

/-! ## Changes to the trees -/

theorem notes_mapChildren (f : List ViewNode → List ViewNode) (s : Scope) :
    (s.mapChildren f).notes = s.notes := by
  rcases s with ⟨m, _ | ⟨⟨depth, line, block⟩, rest⟩⟩
  · rfl
  · cases block <;> rfl

theorem notes_append (node : ViewNode) (s : Scope) : (s.append node).notes = s.notes :=
  notes_mapChildren _ s

theorem notes_mapBody (f : List LogicItem → List LogicItem) (s : Scope) :
    (s.mapBody f).notes = s.notes := by
  rcases s with ⟨m, _ | ⟨⟨depth, line, block⟩, rest⟩⟩
  · rfl
  · cases block <;> rfl

theorem notes_addBranch (branch : Branch ViewNode) (s : Scope) :
    (s.addBranch branch).notes = s.notes := by
  rcases s with ⟨m, _ | ⟨⟨depth, line, block⟩, rest⟩⟩
  · rfl
  · cases block with
    | choice slot cases fallback =>
      unfold addBranch
      dsimp only
      split_ifs <;> rfl
    | _ => rfl

theorem notes_push {block : Block} (hb : block.rule? = none) (s : Scope) (t : Token) :
    (s.push t block).notes = s.notes := by
  simp only [notes, push, List.filterMap_cons, hb]

/-! ## Closing -/

theorem notes_publish {f : Frame} (hf : f.block.rule? = none) (s : Scope) :
    (publish f s).notes = s.notes := by
  obtain ⟨depth, line, block⟩ := f
  cases block with
  | view role nodes =>
    cases role with
    | branch condition => exact notes_addBranch _ s
    | _ => exact notes_mapChildren _ s
  | choice slot cases fallback => exact notes_mapChildren _ s
  | logic owner items =>
    cases owner with
    | nested slot => exact notes_mapBody _ s
    | _ => rfl
  | rule slot declarations => cases hf
  | _ => rfl

/-- A rule that closes gives its declarations to the rule in the list. No other block matters. -/
theorem notes_closeTop (s : Scope) :
    s.closeTop.notes = s.notes ∨
      ∃ slot declarations rest, s.notes.collecting = (slot, declarations) :: rest ∧
        s.closeTop.notes = { s.notes with
          rules := s.notes.rules.modify slot fun r => { r with declarations := declarations }
          collecting := rest } := by
  rcases s with ⟨m, _ | ⟨⟨depth, line, block⟩, rest⟩⟩
  · exact Or.inl rfl
  · by_cases hb : block.rule? = none
    · refine Or.inl ((notes_publish hb ⟨m, rest⟩).trans ?_)
      simp only [notes, List.filterMap_cons, hb]
    · cases block with
      | rule slot declarations => exact Or.inr ⟨slot, declarations, _, rfl, rfl⟩
      | _ => exact absurd rfl hb

/-! ## Lines -/

theorem notes_controlLine (s : Scope) (t : Token) :
    (s.orKeep (s.controlLine t)).notes = s.notes := by
  unfold controlLine
  split
  · exact (notes_push rfl _ t).trans (notes_append _ s)
  · exact (notes_push rfl _ t).trans (notes_append _ s)
  · exact (notes_push rfl _ t).trans (notes_append _ s)
  · unfold openAlternate
    split_ifs
    · exact notes_push rfl s t
    · rfl
  · rfl

theorem notes_registerRef (ref : Option Text) (s : Scope) :
    ((ref.map s.registerRef).getD s).notes = { s.notes with refs := Manifest.note ref s.notes.refs } := by
  cases ref <;> rfl

/-- Of a line among nodes the reference or slot is noted that it names, if it is markup. -/
theorem notes_nodeLine (s : Scope) (t : Token) :
    (s.orKeep (s.nodeLine t)).notes = { s.notes with
      refs := Manifest.note (t.markup?.bind Markup.ref?) s.notes.refs
      slots := Manifest.note (t.markup?.bind Markup.slot?) s.notes.slots } := by
  unfold nodeLine Token.markup?
  by_cases hcontrol : t.category = .control
  · rw [if_pos hcontrol, if_neg fun h => h.1 hcontrol]
    exact notes_controlLine s t
  · rw [if_neg hcontrol]
    by_cases hmarkup : t.category = .element || isSlotLine t.text
    · rw [if_pos hmarkup, if_pos ⟨hcontrol, hmarkup⟩]
      show (s.markupLine t).notes = _
      unfold markupLine
      cases Markup.parse t.text with
      | slot name inline => exact notes_append _ _
      | element e =>
        dsimp only
        split_ifs
        · exact ((notes_push rfl _ t).trans (notes_append _ _)).trans (notes_registerRef e.ref s)
        · exact (notes_append _ _).trans (notes_registerRef e.ref s)
    · have hword : ¬ (t.category ≠ .control ∧ (t.category = .element || isSlotLine t.text)) :=
        fun h => hmarkup h.2
      rw [if_neg hmarkup, if_neg hword]
      split_ifs
      · exact notes_append _ s
      · rfl

theorem notes_logicLine (s : Scope) (t : Token) : (s.logicLine t).notes = s.notes := by
  unfold logicLine
  split_ifs
  · exact (notes_push rfl _ t).trans (notes_mapBody _ s)
  · exact notes_mapBody _ s
  · exact notes_mapBody _ s

theorem notes_headLine (s : Scope) (t : Token) : (s.headLine t).notes = s.notes := by
  rcases s with ⟨m, _ | ⟨⟨depth, line, block⟩, rest⟩⟩
  · rfl
  · cases block <;> rfl

theorem notes_declare {s s' : Scope} {t : Token} (h : s.declare t = .ok s') : s'.notes = s.notes := by
  unfold declare at h
  split at h
  · next m hm =>
    cases h
    unfold Manifest.declare? at hm
    split at hm
    iterate 6
      · obtain ⟨_, _, rfl⟩ := Option.map_eq_some_iff.1 hm
        rfl
    · cases hm
  · cases h

theorem dispatch_inStyle {s : Scope} {t : Token} (h : s.ReachesStyle t) :
    s.dispatch t = s.styleLine t := by
  obtain ⟨hs, hc⟩ := h
  unfold dispatch
  rw [route_of_isViewCategory hc]
  unfold place
  unfold InStyle at hs
  generalize s.top? = top at hs ⊢
  cases top with
  | none => cases hs
  | some block =>
    cases block with
    | style => rfl
    | rule slot declarations => rfl
    | _ => cases hs

theorem notes_place {s s' : Scope} {t : Token} (hlogic : ¬ s.InLogic)
    (hhead : ∀ lines, s.top? ≠ some (.head lines)) (hv : ¬ s.InView) (hs : ¬ s.InStyle)
    (h : s.place t = .ok s') : s'.notes = s.notes := by
  unfold place at h
  split at h
  · next htop => exact absurd (by simp [InStyle, htop, Block.isStyle]) hs
  · next htop => exact absurd (by simp [InStyle, htop, Block.isStyle]) hs
  · rw [branchLine_eq] at h
    split at h
    · cases h
      exact notes_push rfl s t
    · cases h
  · cases h
  · -- no block is left that could be innermost
    exfalso
    unfold InView at hv
    unfold InLogic at hlogic
    cases htop : s.top? with
    | none => simp [htop] at hv
    | some block => cases block <;> simp_all [Block.isLogic, Block.holdsNodes]

theorem notes_route {s s' : Scope} {t : Token} (hlogic : ¬ s.InLogic)
    (hhead : ∀ lines, s.top? ≠ some (.head lines)) (hv : ¬ (s.InView ∧ isViewCategory t.category))
    (hs : ¬ s.ReachesStyle t) (h : s.route t = .ok s') : s'.notes = s.notes := by
  by_cases hc : isViewCategory t.category
  · rw [route_of_isViewCategory hc] at h
    exact notes_place hlogic hhead (fun hin => hv ⟨hin, hc⟩) (fun hin => hs ⟨hin, hc⟩) h
  · unfold route at h
    split at h
    iterate 6 exact notes_declare h
    · unfold openFunction at h
      split at h <;> cases h
      exact notes_push rfl _ t
    · cases h
      exact notes_push rfl _ t
    · unfold openWatcher at h
      split at h <;> cases h
      exact notes_push rfl _ t
    iterate 3
      · cases h
        exact notes_push rfl _ t
    · unfold openPersona at h
      split at h <;> cases h
      exact notes_push rfl _ t
    · cases h
      exact notes_push rfl _ t
    all_goals simp_all [isViewCategory]

/-- Lines outside of views and styles note nothing. -/
theorem notes_dispatch {s s' : Scope} {t : Token} (hv : ¬ (s.InView ∧ isViewCategory t.category))
    (hs : ¬ s.ReachesStyle t) (h : s.dispatch t = .ok s') : s'.notes = s.notes := by
  unfold dispatch at h
  split at h
  · cases h
    exact notes_logicLine s t
  · cases h
    exact notes_logicLine s t
  · cases h
    exact notes_headLine s t
  · next hmount hlogic hhead =>
    refine notes_route ?_ hhead hv hs h
    unfold InLogic
    cases htop : s.top? with
    | none => simp
    | some block => cases block <;> simp_all [Block.isLogic]

end Scope

end ComponentLang
