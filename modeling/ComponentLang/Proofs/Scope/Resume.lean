import ComponentLang.Proofs.Scope.After

/-!
# Lines after a finished manifest

A line of code does to a scope with `base` finished before it what it does to the scope alone.

* `Token.Alike g t t'` : the same line of code, under the number that `g` gives it;
* `Scope.givenName?` : the name that a token gives to the component, and `Scope.names` those along a run;
* `dispatch_after`, `step_after` : taking a line. Only an alternate could reach back into `base`;
* `run_after` : taking tokens in turn;
* `buildManifest_renumber` : with nothing before, tokens under new numbers make the manifest with these.
-/

namespace ComponentLang

/-- The same line of code, under a new number. How far it is indented is told by the depth alone. -/
structure Token.Alike (g : Int → Int) (t t' : Token) : Prop where
  line : t'.line = g t.line
  category : t'.category = t.category
  text : t'.text = t.text
  depth : t'.depth = t.depth

/-- The name in a line that declares the component. -/
def Token.declaredName? (t : Token) : Option Text :=
  match t.category with
  | .component => headerName? "component".toList t.text
  | .memory => headerName? "memory".toList t.text
  | _ => none

/-- The line does not reach back to a condition before it. -/
def Token.Ahead (base : Manifest) (t : Token) : Prop :=
  endsCond base.view = false ∨ controlGist t.text ≠ .alternate

namespace Scope

/-- The name that a line gives to the component. Logic and heads keep such a line as it is. -/
def givenName? (s : Scope) (t : Token) : Option Text :=
  if s.top?.any Block.isVerbatim then none else t.declaredName?

/-- The names that tokens give to the component in turn. -/
def names : Scope → List Token → List Text
  | _, [] => []
  | s, t :: ts => ((s.closeTo t.depth).givenName? t).toList ++ names (s.step t).1 ts

end Scope

/-! ## Declarations -/

theorem Declaration.parseProp?_renumber (g : Int → Int) (text : Text) (line : Int) :
    Declaration.parseProp? text (g line) =
      (Declaration.parseProp? text line).map (Declaration.renumber g) := by
  simp only [Declaration.parseProp?, Declaration.make?, Option.map_bind, Option.map_map,
    Function.comp_def, Declaration.renumber]

theorem Declaration.parseState?_renumber (g : Int → Int) (text : Text) (line : Int) :
    Declaration.parseState? text (g line) =
      (Declaration.parseState? text line).map (Declaration.renumber g) := by
  simp only [Declaration.parseState?, Declaration.make?, Option.map_bind, Option.map_map,
    Function.comp_def, Declaration.renumber]

theorem Derived.parse?_renumber (g : Int → Int) (text : Text) (line : Int) :
    Derived.parse? text (g line) = (Derived.parse? text line).map (Derived.renumber g) := by
  simp only [Derived.parse?, Option.map_bind, Option.map_map, Function.comp_def, Derived.renumber]

section

variable {base : Manifest} {g : Int → Int} {n : Text} {t t' : Token}

/-- One more declaration, after those of `base`. -/
theorem declare?_after (h : t.Alike g t') (m : Manifest) :
    Manifest.declare? { base.followedBy (m.renumber g) with name := n } t' =
      (m.declare? t).map fun m' =>
        { base.followedBy (m'.renumber g) with name := t.declaredName?.getD n } := by
  unfold Manifest.declare? Token.declaredName?
  rw [h.category, h.text, h.line]
  cases t.category with
  | component => cases headerName? "component".toList t.text <;> rfl
  | memory =>
    cases headerName? "memory".toList t.text <;> simp [Manifest.followedBy, Manifest.renumber]
  | use => cases Import.parse? t.text <;> simp [Manifest.followedBy, Manifest.renumber]
  | prop =>
    dsimp only
    rw [Declaration.parseProp?_renumber]
    cases Declaration.parseProp? t.text t.line <;> simp [Manifest.followedBy, Manifest.renumber]
  | state =>
    dsimp only
    rw [Declaration.parseState?_renumber]
    cases Declaration.parseState? t.text t.line <;> simp [Manifest.followedBy, Manifest.renumber]
  | derived =>
    dsimp only
    rw [Derived.parse?_renumber]
    cases Derived.parse? t.text t.line <;> simp [Manifest.followedBy, Manifest.renumber]
  | _ => rfl

namespace Scope

theorem declare_after (h : t.Alike g t') (s : Scope) :
    (s.after base g n).declare t' =
      (s.declare t).map (Scope.after base g (t.declaredName?.getD n)) := by
  have hdeclare : (s.after base g n).manifest.declare? t' = _ := declare?_after h s.manifest
  unfold declare
  rw [hdeclare, h.category]
  cases s.manifest.declare? t <;> rfl

/-! ## Logic, heads and styles -/

theorem push_after (h : t.Alike g t') (s : Scope) (block : Block) :
    (s.after base g n).push t' (block.after base g s.frames) = (s.push t block).after base g n := by
  simp [push, after, framesAfter, h.depth, h.line]

theorem map_inlineBody (h : t.Alike g t') :
    (inlineBody t).map (LogicItem.renumber g) = inlineBody t' := by
  unfold inlineBody
  rw [h.text, h.line]
  cases inlineContent? t.text <;> simp

theorem logicLine_after (h : t.Alike g t') (s : Scope) :
    (s.after base g n).logicLine t' = (s.logicLine t).after base g n := by
  unfold logicLine
  rw [h.category, h.text, h.line]
  split_ifs
  · have hitem : (s.after base g n).appendItem (.block t.text [] (g t.line)) = _ :=
      appendItem_after (.block t.text [] t.line) s
    have hframes : priorItems base (s.appendItem (.block t.text [] t.line)).frames =
        priorItems base s.frames := priorItems_mapBody _ s
    rw [← push_after h, ← hitem, Block.after, LogicOwner.after, hframes, body_after]
    simp
  · exact appendItem_after (.assertion _ t.line) s
  · exact appendItem_after (.line t.text t.line) s

theorem headLine_after (h : t.Alike g t') (s : Scope) :
    (s.after base g n).headLine t' = (s.headLine t).after base g n := by
  rcases s with ⟨m, _ | ⟨⟨depth, line, block⟩, rest⟩⟩
  · rfl
  · cases block with
    | head lines => simp [headLine, headBlanks, after, framesAfter, Block.after, h.depth, h.text]
    | _ => rfl

theorem openRule_after (h : t.Alike g t') (s : Scope) :
    (s.after base g n).openRule t' = (s.openRule t).after base g n := by
  simp [openRule, push, after, framesAfter, Block.after, Manifest.followedBy, Manifest.renumber,
    StyleRule.renumber, h.depth, h.line, h.text]

theorem styleLine_after (h : t.Alike g t') (s : Scope) :
    (s.after base g n).styleLine t' = (s.styleLine t).map (Scope.after base g n) := by
  unfold styleLine
  rw [h.text]
  split_ifs
  · exact congrArg Except.ok (openRule_after h s)
  · rcases s with ⟨m, _ | ⟨⟨depth, line, block⟩, rest⟩⟩
    · rfl
    · cases block <;> rfl

/-! ## Openers -/

theorem openFunction_after (h : t.Alike g t') (s : Scope) :
    (s.after base g n).openFunction t' = (s.openFunction t).map (Scope.after base g n) := by
  unfold openFunction
  rw [h.text]
  cases functionHeader? t.text with
  | none => rfl
  | some header =>
    simp [Except.map, push, after, framesAfter, Block.after, LogicOwner.after, Manifest.followedBy,
      Manifest.renumber, FunctionDecl.renumber, h.depth, h.line]

theorem openMount_after (h : t.Alike g t') (s : Scope) :
    (s.after base g n).openMount t' = (s.openMount t).after base g n := by
  simp [openMount, push, after, framesAfter, Block.after, Manifest.followedBy, Manifest.renumber,
    map_inlineBody h, h.depth, h.line]

theorem openWatcher_after (h : t.Alike g t') (s : Scope) :
    (s.after base g n).openWatcher t' = (s.openWatcher t).map (Scope.after base g n) := by
  unfold openWatcher
  rw [h.text]
  cases watchDependency? t.text with
  | none => rfl
  | some dependency =>
    simp [Except.map, push, after, framesAfter, Block.after, LogicOwner.after, Manifest.followedBy,
      Manifest.renumber, Watcher.renumber, map_inlineBody h, h.depth, h.line]

theorem suite?_after (s : Scope) : (s.after base g n).suite? = s.suite? := by
  have hframes : (framesAfter base g s.frames).findSome? suiteOf? =
      s.frames.findSome? suiteOf? := by
    induction s.frames with
    | nil => rfl
    | cons f rest ih =>
      have hsuite : suiteOf? ⟨f.depth, g f.line, f.block.after base g rest⟩ = suiteOf? f := by
        obtain ⟨depth, line, block⟩ := f
        cases block <;> rfl
      rw [framesAfter, List.findSome?_cons, List.findSome?_cons, hsuite, ih]
  exact congrArg Option.join hframes

theorem openPersona_after (h : t.Alike g t') (s : Scope) :
    (s.after base g n).openPersona t' = (s.openPersona t).map (Scope.after base g n) := by
  unfold openPersona
  rw [h.text, suite?_after]
  cases Persona.ofTag? t.text with
  | none => rfl
  | some persona =>
    simp [Except.map, push, after, framesAfter, Block.after, LogicOwner.after, Manifest.followedBy,
      Manifest.renumber, PersonaTest.renumber, h.depth, h.line]

/-! ## Views -/

theorem openNode_after (h : t.Alike g t') (s : Scope) (node : ViewNode) (nodes : List ViewNode) :
    (s.after base g n).openNode t' (node.renumber g) (nodes.map (ViewNode.renumber g)) =
      (s.openNode t node nodes).after base g n := by
  have hframes : priorNodes base (s.append (node.setChildren nodes)).frames =
      priorNodes base s.frames := priorNodes_mapChildren _ s
  rw [openNode, openNode, ← push_after h, ← append_after, Block.after, ViewRole.after, hframes,
    ViewNode.renumber_setChildren, children_after]
  simp

theorem openChoice_after (h : t.Alike g t') (s : Scope) (subject : Text) :
    (s.after base g n).openChoice t' subject = (s.openChoice t subject).after base g n := by
  have hframes : priorNodes base (s.append (.choice subject [] none t.line)).frames =
      priorNodes base s.frames := priorNodes_mapChildren _ s
  rw [openChoice, openChoice, ← push_after h, ← append_after, Block.after, hframes,
    children_after, h.line]
  simp

theorem endsCond_append_map {before : List ViewNode} (hbefore : endsCond before = false)
    (nodes : List ViewNode) :
    endsCond (before ++ nodes.map (ViewNode.renumber g)) = endsCond nodes := by
  induction nodes using List.reverseRecOn with
  | nil => simpa [endsCond] using hbefore
  | append_singleton nodes node _ =>
    rw [List.map_append, ← List.append_assoc, List.map_singleton, endsCond_concat, endsCond_concat,
      ViewNode.isCond_renumber]

/-- An alternate finds the same condition, unless it is the first of its nodes. -/
theorem openAlternate_after (hbase : endsCond base.view = false) (h : t.Alike g t') (s : Scope)
    (condition : Option Text) (nodes : List ViewNode) :
    (s.after base g n).openAlternate t' condition (nodes.map (ViewNode.renumber g)) =
      (s.openAlternate t condition nodes).map (Scope.after base g n) := by
  have hbefore : endsCond (priorNodes base s.frames) = false := by
    unfold priorNodes
    split
    · rfl
    · exact hbase
  have hcond := endsCond_append_map (g := g) hbefore s.children
  rw [← children_after (n := n)] at hcond
  unfold openAlternate
  rw [← endsCond, ← endsCond, hcond]
  split_ifs with hends
  · -- the condition is one of `s`, so its place moves as all places do
    have hne : s.children ≠ [] := by
      intro hnil
      simp [hnil, endsCond] at hends
    have hpos := List.length_pos_iff.2 hne
    have hslot : (s.after base g n).children.length - 1 =
        (priorNodes base s.frames).length + (s.children.length - 1) := by
      simp only [children_after, List.length_append, List.length_map]
      omega
    rw [hslot]
    exact congrArg Except.ok
      (push_after h s (.view (.alternate (s.children.length - 1) condition) nodes))
  · rfl

theorem controlLine_after (ht : t.Ahead base) (h : t.Alike g t') (s : Scope) :
    (s.after base g n).controlLine t' = (s.controlLine t).map (Scope.after base g n) := by
  unfold controlLine
  rw [h.text, h.line, ← renumber_inlineNodes]
  cases hheader : ViewHeader.parse? (splitInline t.text).1 with
  | none => rfl
  | some header =>
    cases header with
    | each list item => exact congrArg Except.ok (openNode_after h s (.each list item [] t.line) _)
    | cond condition =>
      exact congrArg Except.ok (openNode_after h s (.cond (.last ⟨some condition, [], t.line⟩)) _)
    | choice subject => exact congrArg Except.ok (openChoice_after h s subject)
    | alternate condition =>
      have hbase : endsCond base.view = false := by
        refine ht.resolve_right fun hne => hne ?_
        rw [controlGist, hheader]
      exact openAlternate_after hbase h s condition _

theorem branchLine_after (h : t.Alike g t') (s : Scope) :
    (s.after base g n).branchLine t' = (s.branchLine t).map (Scope.after base g n) := by
  unfold branchLine
  rw [h.text, h.line, h.category, ← renumber_inlineNodes]
  dsimp only
  generalize (if t.category = .control then CaseHeader.parse? (splitInline t.text).1 else none) = header
  rcases header with _ | (condition | _)
  · rfl
  · exact congrArg Except.ok (push_after h s (.view (.branch (some condition)) _))
  · exact congrArg Except.ok (push_after h s (.view (.branch none) _))

theorem registerRef_after (ref : Text) (s : Scope) :
    (s.after base g n).registerRef ref = (s.registerRef ref).after base g n :=
  congrArg (fun l => (⟨{ base.followedBy (s.manifest.renumber g) with name := n, refs := l },
    framesAfter base g s.frames⟩ : Scope)) (register_append_filter ref base.refs s.manifest.refs)

theorem registerSlot_after (name : Text) (s : Scope) :
    (s.after base g n).registerSlot name = (s.registerSlot name).after base g n :=
  congrArg (fun l => (⟨{ base.followedBy (s.manifest.renumber g) with name := n, slots := l },
    framesAfter base g s.frames⟩ : Scope)) (register_append_filter name base.slots s.manifest.slots)

theorem markupLine_after (h : t.Alike g t') (s : Scope) :
    (s.after base g n).markupLine t' = (s.markupLine t).after base g n := by
  unfold markupLine
  rw [h.text, h.line]
  cases Markup.parse t.text with
  | slot name inline =>
    dsimp only
    rw [registerSlot_after, ← append_after, ViewNode.renumber_slot]
  | element e =>
    have href : (e.ref.map (s.after base g n).registerRef).getD (s.after base g n) =
        ((e.ref.map s.registerRef).getD s).after base g n := by
      cases e.ref with
      | none => rfl
      | some ref => exact registerRef_after ref s
    dsimp only
    rw [href, ← renumber_elementNode]
    split_ifs
    · exact openNode_after h _ (elementNode e t.line) []
    · rw [← renumber_inlineNodes, ← ViewNode.renumber_setChildren, append_after]

theorem nodeLine_after (ht : t.Ahead base) (h : t.Alike g t') (s : Scope) :
    (s.after base g n).nodeLine t' = (s.nodeLine t).map (Scope.after base g n) := by
  unfold nodeLine
  rw [h.category, h.text, h.depth]
  split_ifs
  · exact controlLine_after ht h s
  · exact congrArg Except.ok (markupLine_after h s)
  · rw [proseLine, h.text, h.line]
    exact congrArg Except.ok (append_after (.text _ _ t.line) s)
  · rfl

/-! ## Any line -/

theorem top?_after (s : Scope) :
    (s.after base g n).top? = s.top?.map (Block.after base g s.frames.tail) := by
  rcases s with ⟨m, _ | ⟨f, rest⟩⟩ <;> rfl

theorem place_after (ht : t.Ahead base) (h : t.Alike g t') (s : Scope) :
    (s.after base g n).place t' = (s.place t).map (Scope.after base g n) := by
  unfold place
  rw [top?_after, h.category]
  cases s.top? with
  | none => exact nodeLine_after ht h s
  | some block =>
    cases block with
    | style => exact styleLine_after h s
    | rule slot declarations => exact styleLine_after h s
    | choice slot cases fallback => exact branchLine_after h s
    | suite name => rfl
    | _ => exact nodeLine_after ht h s

theorem route_after (ht : t.Ahead base) (h : t.Alike g t') (s : Scope) :
    (s.after base g n).route t' =
      (s.route t).map (Scope.after base g (t.declaredName?.getD n)) := by
  have hdeclare : (s.after base g n).declare t' = _ := declare_after h s
  unfold route
  unfold Token.declaredName? at hdeclare ⊢
  rw [h.category]
  cases hc : t.category with
  | component | memory | use | prop | state | derived =>
    rw [hc] at hdeclare
    exact hdeclare
  | function => exact openFunction_after h s
  | mount => exact congrArg Except.ok (openMount_after h s)
  | watch => exact openWatcher_after h s
  | style => exact congrArg Except.ok (push_after h s .style)
  | head => exact congrArg Except.ok (push_after h s (.head []))
  | suite =>
    rw [h.text]
    exact congrArg Except.ok (push_after h s (.suite _))
  | persona => exact openPersona_after h s
  | view => exact congrArg Except.ok (push_after h s .forest)
  | control | element | assertion | expression => exact place_after ht h s

theorem dispatch_after (ht : t.Ahead base) (h : t.Alike g t') (s : Scope) :
    (s.after base g n).dispatch t' =
      (s.dispatch t).map (Scope.after base g ((s.givenName? t).getD n)) := by
  unfold dispatch givenName?
  rw [top?_after]
  cases s.top? with
  | none => exact route_after ht h s
  | some block =>
    cases block with
    | mount => exact congrArg Except.ok (logicLine_after h s)
    | logic owner items => exact congrArg Except.ok (logicLine_after h s)
    | head lines => exact congrArg Except.ok (headLine_after h s)
    | _ => exact route_after ht h s

/-- A dropped line gives no name. -/
theorem givenName?_of_error {s : Scope} {reason : DropReason} (h : s.dispatch t = .error reason) :
    s.givenName? t = none := by
  have hroute : s.route t = .error reason → t.declaredName? = none := by
    intro h
    unfold Token.declaredName?
    unfold route declare Manifest.declare? at h
    cases hc : t.category with
    | component =>
      rw [hc] at h
      cases hname : headerName? "component".toList t.text with
      | none => rfl
      | some name =>
        rw [hname] at h
        cases h
    | memory =>
      rw [hc] at h
      cases hname : headerName? "memory".toList t.text with
      | none => rfl
      | some name =>
        rw [hname] at h
        cases h
    | _ => rfl
  unfold givenName?
  unfold dispatch at h
  cases htop : s.top? with
  | none =>
    rw [htop] at h
    exact hroute h
  | some block =>
    rw [htop] at h
    cases block with
    | mount | logic | head => rfl
    | _ => exact hroute h

/-! ## Runs -/

theorem step_after (ht : t.Ahead base) (h : t.Alike g t') (s : Scope) :
    ((s.after base g n).step t').1 =
      (s.step t).1.after base g (((s.closeTo t.depth).givenName? t).getD n) := by
  rw [step_eq_orKeep, step_eq_orKeep, h.depth, closeTo_after, dispatch_after ht h]
  cases hline : (s.closeTo t.depth).dispatch t with
  | ok s' => rfl
  | error reason =>
    rw [givenName?_of_error hline]
    rfl

/-- **Tokens after a finished manifest do what they do alone.** -/
theorem run_after {ts ts' : List Token} (h : List.Forall₂ (Token.Alike g) ts ts')
    (hts : ∀ t ∈ ts, t.Ahead base) (s : Scope) :
    (s.after base g n).run ts' = (s.run ts).after base g ((s.names ts).getLast?.getD n) := by
  induction h generalizing s n with
  | nil => rfl
  | @cons t t' ts ts' h _ ih =>
    rw [List.forall_mem_cons] at hts
    rw [run, run, step_after hts.1 h, ih hts.2, names]
    congr 1
    -- a name that is given further on prevails over one that is given here
    cases (s.closeTo t.depth).givenName? t with
    | none => rfl
    | some name => cases hlast : ((s.step t).1.names ts).getLast? <;> simp [List.getLast?_cons, hlast]

theorem name_closeTo (d : Int) (s : Scope) : (s.closeTo d).manifest.name = s.manifest.name :=
  congrArg Sketch.name (sketch_closeTo d s)

end Scope

/-! ## Nothing before -/

theorem Manifest.empty_followedBy (m : Manifest) : Manifest.empty.followedBy m = m := by
  have hhead : Manifest.empty.head.merge m.head = m.head := Head.empty_merge m.head
  have hphrases : Manifest.empty.phrases.merge m.phrases = m.phrases := Table.empty_merge m.phrases
  have hfresh (l : List Text) : [] ++ l.filter (· ∉ ([] : List Text)) = l := by simp
  have hrefs : Manifest.empty.refs ++ m.refs.filter (· ∉ Manifest.empty.refs) = m.refs :=
    hfresh m.refs
  have hslots : Manifest.empty.slots ++ m.slots.filter (· ∉ Manifest.empty.slots) = m.slots :=
    hfresh m.slots
  unfold Manifest.followedBy
  rw [hhead, hphrases, hrefs, hslots]
  rfl

theorem Scope.start_after : Scope.start.after .empty g Manifest.empty.name = Scope.start := by
  have hstart : Manifest.empty.followedBy (Manifest.empty.renumber g) = Manifest.empty :=
    Manifest.empty_followedBy _
  rw [Scope.after, Scope.start, hstart]
  rfl

/-- Tokens of new numbers make the scope with these numbers. -/
theorem Scope.run_renumber {ts ts' : List Token} (h : List.Forall₂ (Token.Alike g) ts ts') :
    Scope.start.run ts' = (Scope.start.run ts).after .empty g
      ((Scope.start.names ts).getLast?.getD Manifest.empty.name) := by
  have hahead : ∀ t ∈ ts, t.Ahead .empty := fun _ _ => .inl rfl
  have hrun := Scope.run_after (n := Manifest.empty.name) h hahead Scope.start
  rwa [Scope.start_after] at hrun

/-- The name of a component is the last one that it is given. -/
theorem Scope.name_run (ts : List Token) :
    (Scope.start.run ts).manifest.name =
      (Scope.start.names ts).getLast?.getD Manifest.empty.name := by
  have hsame : List.Forall₂ (Token.Alike id) ts ts :=
    List.forall₂_same.2 fun _ _ => ⟨rfl, rfl, rfl, rfl⟩
  exact congrArg (·.manifest.name) (Scope.run_renumber hsame)

/-- **Line numbers are only passed on**, by every block that opens or closes. -/
theorem buildManifest_renumber {ts ts' : List Token} (h : List.Forall₂ (Token.Alike g) ts ts')
    (c : Companions) : buildManifest ts' c = (buildManifest ts c).renumber g := by
  have hname := Scope.name_closeTo (-1) (Scope.start.run ts)
  unfold buildManifest Scope.finish
  rw [Manifest.renumber_withCompanions, Scope.run_renumber h, Scope.closeTo_after,
    ← Scope.name_run, ← hname]
  show Manifest.withCompanions { Manifest.empty.followedBy _ with name := _ } c = _
  rw [Manifest.empty_followedBy]
  rfl

end

end ComponentLang
