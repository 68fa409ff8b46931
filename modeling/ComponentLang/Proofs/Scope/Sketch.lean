import ComponentLang.Proofs.Scope.Growth

/-!
# Sketches of a scope

Of a scope, the name of the component, the names of its states and functions and the number of its
root nodes can be followed without all the rest. They depend on the kinds of the open blocks, and on
whether the last node of a list is a condition, since only then an alternate finds its place.

* `Sketch`, `Scope.sketch` : what is left of a scope;
* `Gist`, `gistOf`, `Token.gist` : what is left of a token. It depends on the category, depth and text;
* `Sketch.closeTo`, `Sketch.dispatch`, `Sketch.run` : sketches follow the depths and gists of tokens;
* `sketch_closeTo`, `sketch_step`, `sketch_run` : they follow them as scopes do;
* `skeleton_buildManifest` : tokens of the same depths and gists make manifests of the same name, with
  the same states, functions and number of root nodes.
-/

namespace ComponentLang

/-- The last node is a condition. -/
def endsCond (nodes : List ViewNode) : Bool := nodes.getLast?.any ViewNode.isCond

/-- The kind of an open block. For a block that gathers nodes, `cond` says that the last one is a
condition. -/
inductive BlockSketch where
  | forest
  | nodes (cond : Bool)
  | choice
  | logic
  | suite
  | style
  | rule
  | head
deriving DecidableEq, Repr

/-- What is left of a block. -/
def Block.sketch : Block → BlockSketch
  | .forest => .forest
  | .view _ nodes => .nodes (endsCond nodes)
  | .choice _ _ _ => .choice
  | .mount | .logic _ _ => .logic
  | .suite _ => .suite
  | .style => .style
  | .rule _ _ => .rule
  | .head _ => .head

/-- What is left of a scope. `roots` counts the nodes of the forest, and `cond` says that the last one
is a condition. The open blocks have their depths with them. -/
structure Sketch where
  name : Text
  states : List Text
  functions : List Text
  roots : Nat
  cond : Bool
  blocks : List (Int × BlockSketch)
deriving DecidableEq, Repr

/-- What is left of a frame. -/
def Frame.sketch (f : Frame) : Int × BlockSketch := (f.depth, f.block.sketch)

/-- What is left of a scope. -/
def Scope.sketch (s : Scope) : Sketch where
  name := s.manifest.name
  states := s.manifest.state.map Declaration.id
  functions := s.manifest.functions.map FunctionDecl.name
  roots := s.manifest.view.length
  cond := endsCond s.manifest.view
  blocks := s.frames.map Frame.sketch

/-! ## The gist of a line -/

/-- What is left of a line among the nodes of a view. A header has a block of its own, and `cond` says
that it is a condition. -/
inductive ViewGist where
  | leaf
  | header (cond : Bool)
  | choice
  | alternate
  | stray
deriving DecidableEq, Repr

/-- What is left of a line of control flow. -/
def controlGist (text : Text) : ViewGist :=
  match ViewHeader.parse? (splitInline text).1 with
  | some (.each _ _) => .header false
  | some (.cond _) => .header true
  | some (.choice _) => .choice
  | some (.alternate _) => .alternate
  | none => .stray

/-- What is left of a line of markup. -/
def markupGist (text : Text) : ViewGist :=
  match Markup.parse text with
  | .slot _ _ => .leaf
  | .element e => if e.opensBlock then .header false else .leaf

/-- What is left of a token. -/
structure Gist where
  category : Category
  /-- The name that the line declares: that of the component, of a state or of a function. -/
  name? : Option Text
  /-- The line opens a watcher or a test. -/
  opens : Bool
  /-- The line opens a block in logic. -/
  nests : Bool
  /-- The line opens a rule in a style. -/
  selects : Bool
  /-- The line opens a branch of a choice. -/
  branches : Bool
  view : ViewGist
deriving DecidableEq, Repr

/-- What is left of a token of a category, at a depth, with a text. -/
def gistOf (category : Category) (depth : Int) (text : Text) : Gist where
  category := category
  name? :=
    match category with
    | .component => headerName? "component".toList text
    | .memory => headerName? "memory".toList text
    | .state => (Declaration.parseState? text 0).map Declaration.id
    | .function => (functionHeader? text).map Prod.fst
    | _ => none
  opens :=
    match category with
    | .watch => (watchDependency? text).isSome
    | .persona => (Persona.ofTag? text).isSome
    | _ => false
  nests := category = .control && isLogicBlock text
  selects := Text.endsWith ':' text
  branches := category = .control && (CaseHeader.parse? (splitInline text).1).isSome
  view :=
    if category = .control then controlGist text
    else if category = .element || Scope.isSlotLine text then markupGist text
    else if 0 < depth then .leaf
    else .stray

/-- What is left of a token. -/
def Token.gist (t : Token) : Gist := gistOf t.category t.depth t.text

/-! ## Following gists -/

namespace Sketch

/-- The innermost open block. -/
def top? (k : Sketch) : Option BlockSketch := k.blocks.head?.map Prod.snd

/-- Opens a block. -/
def push (d : Int) (b : BlockSketch) (k : Sketch) : Sketch := { k with blocks := (d, b) :: k.blocks }

/-- Closes the innermost blocks as long as they are as deep as `d`, or deeper. -/
def closeTo (d : Int) (k : Sketch) : Sketch := { k with blocks := k.blocks.dropWhile (d ≤ ·.1) }

/-- The node before is a condition. -/
def afterCond (k : Sketch) : Bool :=
  match k.blocks with
  | (_, .nodes cond) :: _ => cond
  | _ => k.cond

/-- Adds a node. -/
def append (cond : Bool) (k : Sketch) : Sketch :=
  match k.blocks with
  | (d, .nodes _) :: rest => { k with blocks := (d, .nodes cond) :: rest }
  | _ => { k with roots := k.roots + 1, cond := cond }

/-- Takes a line among the nodes of a view. -/
def nodeLine (d : Int) (g : Gist) (k : Sketch) : Sketch :=
  match g.view with
  | .leaf => k.append false
  | .header cond => (k.append cond).push d (.nodes false)
  | .choice => (k.append false).push d .choice
  | .alternate => if k.afterCond then k.push d (.nodes false) else k
  | .stray => k

/-- Takes a line that neither declares nor opens anything by its category. -/
def place (d : Int) (g : Gist) (k : Sketch) : Sketch :=
  match k.top? with
  | some .style | some .rule => if g.selects then k.push d .rule else k
  | some .choice => if g.branches then k.push d (.nodes false) else k
  | some .suite => k
  | _ => k.nodeLine d g

/-- Takes a line outside logic and heads. -/
def route (d : Int) (g : Gist) (k : Sketch) : Sketch :=
  match g.category with
  | .component | .memory => { k with name := g.name?.getD k.name }
  | .use | .prop | .derived => k
  | .state => { k with states := k.states ++ g.name?.toList }
  | .function =>
    match g.name? with
    | some name => push d .logic { k with functions := k.functions ++ [name] }
    | none => k
  | .mount => k.push d .logic
  | .watch | .persona => if g.opens then k.push d .logic else k
  | .style => k.push d .style
  | .head => k.push d .head
  | .suite => k.push d .suite
  | .view => k.push d .forest
  | .control | .element | .assertion | .expression => k.place d g

/-- Takes a line into the innermost block. -/
def dispatch (d : Int) (g : Gist) (k : Sketch) : Sketch :=
  match k.top? with
  | some .logic => if g.nests then k.push d .logic else k
  | some .head => k
  | _ => k.route d g

/-- Takes depths and gists in turn. -/
def run : Sketch → List (Int × Gist) → Sketch
  | k, [] => k
  | k, (d, g) :: rest => run ((k.closeTo d).dispatch d g) rest

end Sketch

/-! ## Lists of nodes -/

theorem endsCond_eq (nodes : List ViewNode) :
    endsCond nodes = (nodes.map ViewNode.isCond).getLast?.any id := by
  rw [endsCond, List.getLast?_map, Option.any_map]
  rfl

theorem endsCond_concat (nodes : List ViewNode) (node : ViewNode) :
    endsCond (nodes ++ [node]) = node.isCond := by
  simp [endsCond]

theorem endsCond_modify {f : ViewNode → ViewNode} (hf : ∀ node, (f node).isCond = node.isCond)
    (nodes : List ViewNode) (slot : Nat) : endsCond (nodes.modify slot f) = endsCond nodes := by
  rw [endsCond_eq, map_modify_of_kind hf, ← endsCond_eq]

theorem isCond_setChildren (nodes : List ViewNode) (node : ViewNode) :
    (node.setChildren nodes).isCond = node.isCond := by
  cases node <;> rfl

theorem isCond_addAlternate (branch : Branch ViewNode) (node : ViewNode) :
    (node.addAlternate branch).isCond = node.isCond := by
  cases node <;> rfl

theorem isCond_setBranches (cases : List (Branch ViewNode)) (fallback : Option (Branch ViewNode))
    (node : ViewNode) : (node.setBranches cases fallback).isCond = node.isCond := by
  cases node <;> rfl

theorem isCond_elementNode (e : Element) (line : Int) :
    (Scope.elementNode e line).isCond = false := by
  unfold Scope.elementNode
  split_ifs <;> rfl

theorem endsCond_inlineNodes (inline : Option Text) (line : Int) :
    endsCond (inlineNodes inline line) = false := by
  cases inline <;> rfl

namespace Scope

/-! ## Closing -/

theorem top?_sketch (s : Scope) : s.sketch.top? = s.top?.map Block.sketch := by
  simp [Sketch.top?, sketch, top?, Frame.sketch, Function.comp_def]

theorem sketch_push (s : Scope) (t : Token) (block : Block) :
    (s.push t block).sketch = s.sketch.push t.depth block.sketch := rfl

theorem sketch_append (node : ViewNode) (s : Scope) :
    (s.append node).sketch = s.sketch.append node.isCond := by
  rcases s with ⟨m, _ | ⟨⟨depth, line, block⟩, rest⟩⟩
  · simp [append, mapChildren, sketch, Sketch.append, endsCond_concat]
  · cases block <;>
      simp [append, mapChildren, sketch, Sketch.append, endsCond_concat, Frame.sketch, Block.sketch]

theorem afterCond_sketch (s : Scope) : s.sketch.afterCond = endsCond s.children := by
  rcases s with ⟨m, _ | ⟨⟨depth, line, block⟩, rest⟩⟩
  · rfl
  · cases block <;> rfl

/-- What blocks fill in when they close is not seen in a sketch. -/
theorem sketch_modify {f : ViewNode → ViewNode} (hf : ∀ node, (f node).isCond = node.isCond)
    (slot : Nat) (s : Scope) : (s.mapChildren (·.modify slot f)).sketch = s.sketch := by
  rcases s with ⟨m, _ | ⟨⟨depth, line, block⟩, rest⟩⟩
  · simp [mapChildren, sketch, endsCond_modify hf]
  · cases block <;>
      simp [mapChildren, sketch, endsCond_modify hf, Frame.sketch, Block.sketch]

theorem sketch_mapBody (f : List LogicItem → List LogicItem) (s : Scope) :
    (s.mapBody f).sketch = s.sketch := by
  rcases s with ⟨m, _ | ⟨⟨depth, line, block⟩, rest⟩⟩
  · rfl
  · cases block <;> rfl

theorem sketch_addBranch (branch : Branch ViewNode) (s : Scope) :
    (s.addBranch branch).sketch = s.sketch := by
  unfold addBranch
  split
  · next h =>
    dsimp only
    split_ifs <;> simp [sketch, h, Frame.sketch, Block.sketch]
  · rfl

theorem sketch_publish (f : Frame) (s : Scope) : (publish f s).sketch = s.sketch := by
  obtain ⟨depth, line, block⟩ := f
  cases block with
  | view role nodes =>
    cases role with
    | node slot => exact sketch_modify (isCond_setChildren nodes) slot s
    | alternate slot condition => exact sketch_modify (isCond_addAlternate _) slot s
    | branch condition => exact sketch_addBranch _ s
  | choice slot cases fallback => exact sketch_modify (isCond_setBranches cases fallback) slot s
  | logic owner items =>
    cases owner with
    | function slot =>
      have hnames : (s.manifest.functions.modify slot fun f => { f with body := items }).map
          FunctionDecl.name = s.manifest.functions.map FunctionDecl.name := by
        apply map_modify_of_kind
        exact fun _ => rfl
      simp [publish, publishBody, sketch, hnames]
    | nested slot => exact sketch_mapBody _ s
    | _ => rfl
  | _ => rfl

theorem sketch_closeTop (s : Scope) :
    s.closeTop.sketch = { s.sketch with blocks := s.sketch.blocks.tail } := by
  unfold closeTop
  split
  · next h => simp [sketch, h]
  · next f rest h =>
    rw [sketch_publish]
    simp [sketch, h]

theorem sketch_closeMany (n : Nat) (s : Scope) :
    (closeMany n s).sketch = { s.sketch with blocks := s.sketch.blocks.drop n } := by
  induction n generalizing s with
  | zero => rfl
  | succ n ih => rw [closeMany, ih, sketch_closeTop, List.drop_tail]

theorem sketch_closeTo (d : Int) (s : Scope) : (s.closeTo d).sketch = s.sketch.closeTo d := by
  rw [closeTo, sketch_closeMany, Sketch.closeTo]
  simp only [sketch]
  generalize s.frames = frames
  induction frames with
  | nil => rfl
  | cons f rest ih =>
    by_cases hf : d ≤ f.depth
    · simpa [hf, Frame.sketch] using ih
    · simp [hf, Frame.sketch]

/-! ## Lines -/

/-- The scope after a line: that before it, if the line found no place. -/
def orKeep (s : Scope) : Except DropReason Scope → Scope
  | .ok s' => s'
  | .error _ => s

theorem step_eq_orKeep (s : Scope) (t : Token) :
    (s.step t).1 = (s.closeTo t.depth).orKeep ((s.closeTo t.depth).dispatch t) := by
  unfold step
  cases (s.closeTo t.depth).dispatch t <;> rfl

theorem before_succ_eq_orKeep {ts : List Token} {i : Nat} {t : Token} (ht : ts[i]? = some t) :
    before ts (i + 1) = (around ts i).orKeep ((around ts i).dispatch t) := by
  rw [before_succ ht, step_eq_orKeep, ← around_eq ht]

theorem sketch_openNode (s : Scope) (t : Token) (node : ViewNode) {nodes : List ViewNode}
    (hnodes : endsCond nodes = false) :
    (s.openNode t node nodes).sketch =
      (s.sketch.append node.isCond).push t.depth (.nodes false) := by
  rw [openNode, sketch_push, sketch_append, isCond_setChildren, Block.sketch, hnodes]

theorem sketch_openAlternate (s : Scope) (t : Token) (condition : Option Text)
    {nodes : List ViewNode} (hnodes : endsCond nodes = false) :
    (s.orKeep (s.openAlternate t condition nodes)).sketch =
      if s.sketch.afterCond then s.sketch.push t.depth (.nodes false) else s.sketch := by
  rw [afterCond_sketch, openAlternate, endsCond]
  split_ifs
  · rw [orKeep, sketch_push, Block.sketch, hnodes]
  · rfl

theorem sketch_controlLine {t : Token} (ht : t.category = .control) (s : Scope) :
    (s.orKeep (s.controlLine t)).sketch = s.sketch.nodeLine t.depth t.gist := by
  have hinline := endsCond_inlineNodes (splitInline t.text).2 t.line
  have hview : t.gist.view = controlGist t.text := if_pos ht
  rw [Sketch.nodeLine, hview, controlLine, controlGist]
  cases ViewHeader.parse? (splitInline t.text).1 with
  | none => rfl
  | some header =>
    cases header with
    | each list item => exact sketch_openNode s t _ hinline
    | cond condition => exact sketch_openNode s t _ hinline
    | choice subject =>
      show (s.openChoice t subject).sketch = _
      rw [openChoice, sketch_push, sketch_append]
      rfl
    | alternate condition => exact sketch_openAlternate s t condition hinline

theorem sketch_markupLine {t : Token} (ht : t.category ≠ .control)
    (hmarkup : (t.category = .element || isSlotLine t.text) = true) (s : Scope) :
    (s.markupLine t).sketch = s.sketch.nodeLine t.depth t.gist := by
  have hview : t.gist.view = markupGist t.text := (if_neg ht).trans (if_pos hmarkup)
  rw [Sketch.nodeLine, hview, markupLine, markupGist]
  cases Markup.parse t.text with
  | slot name inline => exact sketch_append _ _
  | element e =>
    have href : ((e.ref.map s.registerRef).getD s).sketch = s.sketch := by
      cases e.ref <;> rfl
    dsimp only
    cases e.opensBlock with
    | true =>
      rw [if_pos rfl, if_pos rfl, sketch_openNode _ t _ rfl, href, isCond_elementNode]
    | false =>
      rw [if_neg Bool.false_ne_true, if_neg Bool.false_ne_true, sketch_append, href,
        isCond_setChildren, isCond_elementNode]

theorem sketch_nodeLine (s : Scope) (t : Token) :
    (s.orKeep (s.nodeLine t)).sketch = s.sketch.nodeLine t.depth t.gist := by
  unfold nodeLine
  split_ifs with hcontrol hmarkup hdepth
  · exact sketch_controlLine hcontrol s
  · exact sketch_markupLine hcontrol hmarkup s
  · have hview : t.gist.view = .leaf :=
      (if_neg hcontrol).trans ((if_neg hmarkup).trans (if_pos hdepth))
    rw [Sketch.nodeLine, hview]
    exact sketch_append _ _
  · have hview : t.gist.view = .stray :=
      (if_neg hcontrol).trans ((if_neg hmarkup).trans (if_neg hdepth))
    rw [Sketch.nodeLine, hview]
    rfl

theorem sketch_branchLine (s : Scope) (t : Token) :
    (s.orKeep (s.branchLine t)).sketch =
      if t.gist.branches then s.sketch.push t.depth (.nodes false) else s.sketch := by
  have hbranches : t.gist.branches = (BranchLine.read? t).isSome := by
    unfold Token.gist gistOf BranchLine.read?
    dsimp only
    split_ifs with hc
    · cases CaseHeader.parse? (splitInline t.text).1 with
      | none => simp
      | some header => cases header <;> simp [hc]
    · simp [hc]
  rw [branchLine_eq, hbranches]
  cases BranchLine.read? t with
  | none => rfl
  | some condition =>
    show (s.push t _).sketch = _
    rw [sketch_push, Block.sketch, headerNodes, endsCond_inlineNodes]
    rfl

theorem sketch_styleLine (s : Scope) (t : Token) :
    (s.orKeep (s.styleLine t)).sketch =
      if t.gist.selects then s.sketch.push t.depth .rule else s.sketch := by
  have hselects : t.gist.selects = Text.endsWith ':' t.text := rfl
  rw [hselects]
  unfold styleLine
  split_ifs
  · rfl
  · rcases s with ⟨m, _ | ⟨⟨depth, line, block⟩, rest⟩⟩
    · rfl
    · cases block <;> rfl

theorem sketch_place (s : Scope) (t : Token) :
    (s.orKeep (s.place t)).sketch = s.sketch.place t.depth t.gist := by
  unfold place Sketch.place
  rw [top?_sketch]
  cases s.top? with
  | none => exact sketch_nodeLine s t
  | some block =>
    cases block with
    | style => exact sketch_styleLine s t
    | rule slot declarations => exact sketch_styleLine s t
    | choice slot cases fallback => exact sketch_branchLine s t
    | suite name => rfl
    | _ => exact sketch_nodeLine s t

theorem id_parseState? (text : Text) (line : Int) :
    (Declaration.parseState? text line).map Declaration.id =
      (Declaration.parseState? text 0).map Declaration.id := by
  unfold Declaration.parseState? Declaration.make?
  simp only [Option.map_bind, Function.comp_def, Option.map_map]

theorem sketch_route (s : Scope) (t : Token) :
    (s.orKeep (s.route t)).sketch = s.sketch.route t.depth t.gist := by
  unfold route Sketch.route Token.gist gistOf
  dsimp only
  cases hc : t.category with
  | component | memory =>
    simp only [declare, Manifest.declare?, hc]
    cases headerName? _ t.text <;> rfl
  | use =>
    simp only [declare, Manifest.declare?, hc]
    cases Import.parse? t.text <;> rfl
  | prop =>
    simp only [declare, Manifest.declare?, hc]
    cases Declaration.parseProp? t.text t.line <;> rfl
  | derived =>
    simp only [declare, Manifest.declare?, hc]
    cases Derived.parse? t.text t.line <;> rfl
  | state =>
    simp only [declare, Manifest.declare?, hc, ← id_parseState? t.text t.line]
    cases Declaration.parseState? t.text t.line with
    | none => simp [orKeep]
    | some d => simp [orKeep, sketch]
  | function =>
    simp only [openFunction]
    cases functionHeader? t.text with
    | none => rfl
    | some header => simp [orKeep, sketch, push, Sketch.push, Frame.sketch, Block.sketch]
  | watch =>
    simp only [openWatcher]
    cases watchDependency? t.text <;> rfl
  | persona =>
    simp only [openPersona]
    cases Persona.ofTag? t.text <;> rfl
  | mount | style | head | suite | view => rfl
  | control | element | assertion | expression =>
    have hplace := sketch_place s t
    rw [Token.gist, hc] at hplace
    exact hplace

/-- A line does to sketches what it does to scopes. -/
theorem sketch_dispatch (s : Scope) (t : Token) :
    (s.orKeep (s.dispatch t)).sketch = s.sketch.dispatch t.depth t.gist := by
  have hnests : t.gist.nests = (t.category = .control && isLogicBlock t.text) := rfl
  have hlogic : (s.logicLine t).sketch =
      if t.gist.nests then s.sketch.push t.depth .logic else s.sketch := by
    rw [hnests]
    unfold logicLine
    split_ifs
    · rw [sketch_push, appendItem, sketch_mapBody]
      rfl
    · exact sketch_mapBody _ s
    · exact sketch_mapBody _ s
  have hhead : (s.headLine t).sketch = s.sketch := by
    unfold headLine
    split
    · next h => simp [sketch, h, Frame.sketch, Block.sketch]
    · rfl
  unfold dispatch Sketch.dispatch
  rw [top?_sketch]
  cases s.top? with
  | none => exact sketch_route s t
  | some block =>
    cases block with
    | mount => exact hlogic
    | logic owner items => exact hlogic
    | head lines => exact hhead
    | _ => exact sketch_route s t

theorem sketch_step (s : Scope) (t : Token) :
    (s.step t).1.sketch = (s.sketch.closeTo t.depth).dispatch t.depth t.gist := by
  rw [step_eq_orKeep, sketch_dispatch, sketch_closeTo]

theorem sketch_run (s : Scope) (ts : List Token) :
    (s.run ts).sketch = s.sketch.run (ts.map fun t => (t.depth, t.gist)) := by
  induction ts generalizing s with
  | nil => rfl
  | cons t ts ih =>
    rw [run, ih, sketch_step]
    rfl

end Scope

/-- Tokens of the same depths and gists make manifests of the same name, with the same states,
functions and number of root nodes. -/
theorem skeleton_buildManifest {ts ts' : List Token}
    (h : ts'.map (fun t => (t.depth, t.gist)) = ts.map fun t => (t.depth, t.gist))
    (c c' : Companions) :
    (buildManifest ts' c').name = (buildManifest ts c).name ∧
    (buildManifest ts' c').state.map Declaration.id =
      (buildManifest ts c).state.map Declaration.id ∧
    (buildManifest ts' c').functions.map FunctionDecl.name =
      (buildManifest ts c).functions.map FunctionDecl.name ∧
    (buildManifest ts' c').view.length = (buildManifest ts c).view.length := by
  have hsketch : ((Scope.start.run ts').closeTo (-1)).sketch =
      ((Scope.start.run ts).closeTo (-1)).sketch := by
    rw [Scope.sketch_closeTo, Scope.sketch_closeTo, Scope.sketch_run, Scope.sketch_run, h]
  exact ⟨congrArg Sketch.name hsketch, congrArg Sketch.states hsketch,
    congrArg Sketch.functions hsketch, congrArg Sketch.roots hsketch⟩

end ComponentLang
