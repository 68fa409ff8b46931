import ComponentLang.Proofs.Scope.Closing

/-!
# What a line of a view is

The line alone tells what it is; the scope only decides whether an alternate has a condition to
follow.

* `ViewLine`, `ViewLine.read` : a line among the nodes of a view;
* `BranchLine.read?` : a line right under a choice;
* `Scope.InView`, `Scope.InChoice` : the innermost block takes nodes of a view, or branches of a
  choice;
* `nodeLine_cases`, `nodeLine_ok` : what each kind of line does;
* `dispatch_inView`, `dispatch_inChoice` : where lines of markup, control flow and text go.
-/

namespace ComponentLang

/-- A line among the nodes of a view. -/
inductive ViewLine where
  /-- A node without a block. -/
  | leaf (node : ViewNode)
  /-- A node with a block for its body, which begins with `nodes`. -/
  | header (node : ViewNode) (nodes : List ViewNode)
  /-- A choice, with a block for its branches. -/
  | choice (subject : Text)
  /-- A further branch of the condition before it, whose body begins with `nodes`. -/
  | alternate (condition : Option Text) (nodes : List ViewNode)
  /-- A line that has no place in a view. -/
  | stray

/-- The nodes that a header of control flow holds on its own line. -/
def headerNodes (t : Token) : List ViewNode := inlineNodes (splitInline t.text).2 t.line

namespace ViewLine

/-- A line of control flow. -/
def readControl (t : Token) : ViewLine :=
  match ViewHeader.parse? (splitInline t.text).1 with
  | some (.each list item) => .header (.each list item [] t.line) (headerNodes t)
  | some (.cond condition) => .header (.cond (.last ⟨some condition, [], t.line⟩)) (headerNodes t)
  | some (.choice subject) => .choice subject
  | some (.alternate condition) => .alternate condition (headerNodes t)
  | none => .stray

/-- A line of markup. -/
def readMarkup (t : Token) : ViewLine :=
  match Markup.parse t.text with
  | .slot name _ => .leaf (.slot name t.line)
  | .element e =>
    if e.opensBlock then .header (Scope.elementNode e t.line) []
    else .leaf ((Scope.elementNode e t.line).setChildren (inlineNodes e.inline t.line))

/-- What a line is among the nodes of a view. Text has to stand under something. -/
def read (t : Token) : ViewLine :=
  if t.category = .control then readControl t
  else if t.category = .element || Scope.isSlotLine t.text then readMarkup t
  else if 0 < t.depth then
    .leaf (.text (classifyText true t.text).1 (classifyText true t.text).2 t.line)
  else .stray

end ViewLine

/-- The condition of the branch that a line right under a choice opens; no condition for the branch
that is taken when no other is. -/
def BranchLine.read? (t : Token) : Option (Option Text) :=
  if t.category = .control then
    match CaseHeader.parse? (splitInline t.text).1 with
    | some (.case condition) => some (some condition)
    | some .fallback => some none
    | none => none
  else none

/-- The block takes lines among the nodes of a view. -/
def Block.holdsNodes : Block → Bool
  | .forest | .view _ _ => true
  | _ => false

/-- The block takes the branches of a choice. -/
def Block.isChoice : Block → Bool
  | .choice _ _ _ => true
  | _ => false

namespace Scope

/-- The innermost block takes lines among the nodes of a view. Without a block, the root does. -/
def InView (s : Scope) : Prop := s.top?.all Block.holdsNodes

/-- The innermost block is a choice. -/
def InChoice (s : Scope) : Prop := s.top?.any Block.isChoice

instance (s : Scope) : Decidable s.InView := inferInstanceAs (Decidable (_ = true))

instance (s : Scope) : Decidable s.InChoice := inferInstanceAs (Decidable (_ = true))

/-- The category of lines that go where the innermost block sends them. -/
def isViewCategory : Category → Bool
  | .control | .element | .assertion | .expression => true
  | _ => false

theorem sameView_registerRef (s : Scope) (ref : Option Text) :
    SameView s ((ref.map s.registerRef).getD s) := by
  cases ref <;> exact ⟨rfl, rfl⟩

/-- What a line among nodes does, apart from noting references and slots. -/
theorem nodeLine_cases (s : Scope) (t : Token) :
    ∃ s₀, SameView s s₀ ∧
      match ViewLine.read t with
      | .leaf node => s.nodeLine t = .ok (s₀.append node)
      | .header node nodes => s.nodeLine t = .ok (s₀.openNode t node nodes)
      | .choice subject => s.nodeLine t = .ok (s₀.openChoice t subject)
      | .alternate condition nodes => s.nodeLine t = s₀.openAlternate t condition nodes
      | .stray => ∃ reason, s.nodeLine t = .error reason := by
  unfold nodeLine ViewLine.read
  split_ifs with hcontrol hmarkup hdepth
  · refine ⟨s, .refl s, ?_⟩
    unfold ViewLine.readControl controlLine
    cases ViewHeader.parse? (splitInline t.text).1 with
    | none => exact ⟨_, rfl⟩
    | some header => cases header <;> rfl
  · unfold ViewLine.readMarkup markupLine
    cases Markup.parse t.text with
    | slot name _ => exact ⟨s.registerSlot name, ⟨rfl, rfl⟩, rfl⟩
    | element e =>
      refine ⟨_, sameView_registerRef s e.ref, ?_⟩
      dsimp only
      split_ifs <;> rfl
  · exact ⟨s, .refl s, rfl⟩
  · exact ⟨s, .refl s, _, rfl⟩

/-- A line among nodes that finds a place does one of four things. -/
theorem nodeLine_ok {s s' : Scope} {t : Token} (h : s.nodeLine t = .ok s') :
    ∃ s₀, SameView s s₀ ∧
      ((∃ node, ViewLine.read t = .leaf node ∧ s' = s₀.append node) ∨
      (∃ node nodes, ViewLine.read t = .header node nodes ∧ s' = s₀.openNode t node nodes) ∨
      (∃ subject, ViewLine.read t = .choice subject ∧ s' = s₀.openChoice t subject) ∨
      (∃ condition nodes, ViewLine.read t = .alternate condition nodes ∧
        s₀.children.getLast?.any ViewNode.isCond ∧
        s' = s₀.push t (.view (.alternate (s₀.children.length - 1) condition) nodes))) := by
  obtain ⟨s₀, hs₀, hcases⟩ := nodeLine_cases s t
  refine ⟨s₀, hs₀, ?_⟩
  rw [h] at hcases
  cases hread : ViewLine.read t with
  | leaf node =>
    simp only [hread] at hcases
    exact Or.inl ⟨node, rfl, Except.ok.inj hcases⟩
  | header node nodes =>
    simp only [hread] at hcases
    exact Or.inr (Or.inl ⟨node, nodes, rfl, Except.ok.inj hcases⟩)
  | choice subject =>
    simp only [hread] at hcases
    exact Or.inr (Or.inr (Or.inl ⟨subject, rfl, Except.ok.inj hcases⟩))
  | alternate condition nodes =>
    simp only [hread] at hcases
    rw [openAlternate] at hcases
    split_ifs at hcases with hlast
    exact Or.inr (Or.inr (Or.inr ⟨condition, nodes, rfl, hlast, Except.ok.inj hcases⟩))
  | stray =>
    simp only [hread] at hcases
    obtain ⟨reason, hcases⟩ := hcases
    cases hcases

theorem branchLine_eq (s : Scope) (t : Token) :
    s.branchLine t = match BranchLine.read? t with
      | some condition => .ok (s.push t (.view (.branch condition) (headerNodes t)))
      | none => .error .notABranch := by
  unfold branchLine BranchLine.read?
  split_ifs
  · cases CaseHeader.parse? (splitInline t.text).1 with
    | none => rfl
    | some header => cases header <;> rfl
  · rfl

theorem route_of_isViewCategory {t : Token} (h : isViewCategory t.category) (s : Scope) :
    s.route t = s.place t := by
  unfold route
  cases hc : t.category <;> simp_all [isViewCategory]

theorem dispatch_inView {s : Scope} {t : Token} (hs : s.InView) (h : isViewCategory t.category) :
    s.dispatch t = s.nodeLine t := by
  unfold dispatch
  rw [route_of_isViewCategory h]
  unfold place
  unfold InView at hs
  generalize s.top? = top at hs ⊢
  cases top with
  | none => rfl
  | some block =>
    cases block with
    | forest => rfl
    | view role nodes => rfl
    | _ => cases hs

theorem dispatch_inChoice {s : Scope} {t : Token} (hs : s.InChoice)
    (h : isViewCategory t.category) : s.dispatch t = s.branchLine t := by
  unfold dispatch
  rw [route_of_isViewCategory h]
  unfold place
  unfold InChoice at hs
  generalize s.top? = top at hs ⊢
  cases top with
  | none => cases hs
  | some block =>
    cases block with
    | choice slot cases fallback => rfl
    | _ => cases hs

end Scope

end ComponentLang
