import ComponentLang.Proofs.Logic.Body

/-!
# What openers of logic leave in the manifest

* `LogicEntry` : a function, a watcher, a test, or the lines of a mount hook;
* `Scope.Outside` : no block is open that keeps its lines as they are;
* `Scope.opener?` : what a token opens there, as a function of the body under it;
* `entryAt?` : what the token at a position opens, with the body that the deeper tokens after it make;
* `Manifest.Adds es m m'` : from `m` to `m'` the entries `es` were added, and nothing else of this
  kind;
* `adds_step` : how a token outside, and all that it swallows, adds to the manifest;
* `logic_buildManifest` : the functions, watchers, tests and the mount hook of a manifest are those
  of its openers, in order.
-/

namespace ComponentLang

/-- What an opener of logic leaves in the manifest. -/
inductive LogicEntry where
  | function (decl : FunctionDecl)
  | watcher (watcher : Watcher)
  | persona (test : PersonaTest)
  | mount (body : List LogicItem)

namespace LogicEntry

/-- The function of an entry. -/
def functions : LogicEntry → List FunctionDecl
  | .function decl => [decl]
  | _ => []

/-- The watcher of an entry. -/
def watchers : LogicEntry → List Watcher
  | .watcher w => [w]
  | _ => []

/-- The test of an entry. -/
def tests : LogicEntry → List PersonaTest
  | .persona test => [test]
  | _ => []

/-- The lines that an entry adds to the mount hook. -/
def lifecycle : LogicEntry → List LogicItem
  | .mount body => body
  | _ => []

end LogicEntry

/-- The block keeps its lines as they are: it is one of logic, or a head. -/
def Block.isVerbatim : Block → Bool
  | .mount | .logic _ _ | .head _ => true
  | _ => false

theorem Block.isVerbatim_bare (b : Block) : b.bare.isVerbatim = b.isVerbatim := by
  cases b <;> rfl

theorem Block.isVerbatim_of_isLogic {b : Block} (h : b.isLogic) : b.isVerbatim := by
  cases b with
  | mount => rfl
  | logic owner items => rfl
  | _ => cases h

namespace Scope

/-- No block is open that keeps its lines as they are. -/
def Outside (s : Scope) : Prop := ∀ f ∈ s.frames, f.block.isVerbatim = false

instance (s : Scope) : Decidable s.Outside := inferInstanceAs (Decidable (∀ f ∈ _, _))

/-- What a token opens outside of logic and heads, given the body under it. -/
def opener? (s : Scope) (t : Token) : Option (List LogicItem → LogicEntry) :=
  match t.category with
  | .function =>
    (functionHeader? t.text).map fun (name, params) body => .function ⟨name, params, body, t.line⟩
  | .mount => some fun body => .mount (inlineBody t ++ body)
  | .watch =>
    (watchDependency? t.text).map fun dependency body =>
      .watcher ⟨dependency, inlineBody t ++ body, t.line⟩
  | .persona =>
    (Persona.ofTag? t.text).map fun persona body => .persona ⟨persona, s.suite?, body, t.line⟩
  | _ => none

end Scope

/-- What the token at a position leaves in the manifest, if it is an opener of logic outside of logic
and heads. Its body is made of the deeper tokens right after it. -/
def entryAt? (ts : List Token) (i : Nat) : Option LogicEntry :=
  ts[i]?.bind fun t =>
    if (Scope.around ts i).Outside then
      ((Scope.around ts i).opener? t).map fun entry =>
        entry (logicItems (Scope.under t (ts.drop (i + 1))))
    else none

/-! ## Adding entries -/

/-- The second manifest has the entries after what the first has. -/
structure Manifest.Adds (es : List LogicEntry) (m m' : Manifest) : Prop where
  functions : m'.functions = m.functions ++ es.flatMap LogicEntry.functions
  watchers : m'.watchers = m.watchers ++ es.flatMap LogicEntry.watchers
  tests : m'.tests = m.tests ++ es.flatMap LogicEntry.tests
  lifecycle : m'.lifecycle = m.lifecycle ++ es.flatMap LogicEntry.lifecycle

theorem Manifest.Adds.refl (m : Manifest) : m.Adds [] m := by
  constructor <;> simp

theorem Manifest.adds_nil {m m' : Manifest} (hfunctions : m'.functions = m.functions)
    (hwatchers : m'.watchers = m.watchers) (htests : m'.tests = m.tests)
    (hlifecycle : m'.lifecycle = m.lifecycle) : m.Adds [] m' := by
  constructor <;> simpa

theorem Manifest.Adds.trans {es es' : List LogicEntry} {m m' m'' : Manifest} (h : m.Adds es m')
    (h' : m'.Adds es' m'') : m.Adds (es ++ es') m'' where
  functions := by rw [h'.functions, h.functions, List.append_assoc, List.flatMap_append]
  watchers := by rw [h'.watchers, h.watchers, List.append_assoc, List.flatMap_append]
  tests := by rw [h'.tests, h.tests, List.append_assoc, List.flatMap_append]
  lifecycle := by rw [h'.lifecycle, h.lifecycle, List.append_assoc, List.flatMap_append]

namespace Scope

theorem outside_iff (s : Scope) : s.Outside ↔ ∀ f ∈ s.outline, f.block.isVerbatim = false := by
  simp [Outside, outline, Frame.bare, Block.isVerbatim_bare]

theorem outside_congr {s s' : Scope} (h : s'.outline = s.outline) : s'.Outside ↔ s.Outside := by
  rw [outside_iff, outside_iff, h]

/-! ## Lines that add no entry -/

/-- No entry is added, and no block is opened that keeps its lines as they are. -/
structure Keeps (s s' : Scope) : Prop where
  logic : s.manifest.Adds [] s'.manifest
  outside : s.Outside → s'.Outside

theorem Keeps.refl (s : Scope) : s.Keeps s := ⟨.refl _, id⟩

theorem Keeps.trans {s s' s'' : Scope} (h : s.Keeps s') (h' : s'.Keeps s'') : s.Keeps s'' :=
  ⟨h.logic.trans h'.logic, h'.outside ∘ h.outside⟩

theorem keeps_of_outline {s s' : Scope} (hm : s.manifest.Adds [] s'.manifest)
    (ho : s'.outline = s.outline) : s.Keeps s' := ⟨hm, (outside_congr ho).2⟩

theorem Keeps.push {s s' : Scope} (h : s.Keeps s') (t : Token) {block : Block}
    (hb : block.isVerbatim = false) : s.Keeps (s'.push t block) := by
  refine ⟨h.logic, fun hs f hf => ?_⟩
  rcases List.mem_cons.1 hf with rfl | hf
  · exact hb
  · exact h.outside hs f hf

theorem keeps_mapChildren (f : List ViewNode → List ViewNode) (s : Scope) :
    s.Keeps (s.mapChildren f) := by
  refine keeps_of_outline ?_ (outline_mapChildren f s)
  unfold mapChildren
  split <;> exact Manifest.adds_nil rfl rfl rfl rfl

theorem keeps_addBranch (branch : Branch ViewNode) (s : Scope) : s.Keeps (s.addBranch branch) := by
  refine keeps_of_outline ?_ (outline_addBranch branch s)
  unfold addBranch
  split <;> exact .refl _

/-- Outside of logic and heads, closing blocks adds no entry. -/
theorem keeps_publish {f : Frame} (hf : f.block.isVerbatim = false) (s : Scope) :
    s.Keeps (publish f s) := by
  obtain ⟨depth, line, block⟩ := f
  cases block with
  | view role nodes =>
    cases role with
    | node slot => exact keeps_mapChildren _ s
    | alternate slot condition => exact keeps_mapChildren _ s
    | branch condition => exact keeps_addBranch _ s
  | choice slot cases fallback => exact keeps_mapChildren _ s
  | rule slot declarations =>
    exact keeps_of_outline (Manifest.adds_nil rfl rfl rfl rfl) rfl
  | mount => cases hf
  | logic owner items => cases hf
  | head lines => cases hf
  | _ => exact .refl s

theorem keeps_closeTop {s : Scope} (hs : s.Outside) : s.Keeps s.closeTop := by
  unfold closeTop
  split
  · exact .refl s
  · next f rest hframes =>
    have hrest : s.Keeps { s with frames := rest } :=
      ⟨.refl _, fun hs g hg => hs g (by rw [hframes]; exact List.mem_cons_of_mem f hg)⟩
    exact hrest.trans (keeps_publish (hs f (by simp [hframes])) _)

theorem keeps_closeTo (depth : Int) {s : Scope} (hs : s.Outside) : s.Keeps (s.closeTo depth) :=
  closeTo_induction (fun _ h => h.trans (keeps_closeTop (h.outside hs))) depth (.refl s)

theorem keeps_openNode {s s₀ : Scope} (h : s.Keeps s₀) (t : Token) (node : ViewNode)
    (nodes : List ViewNode) : s.Keeps (s₀.openNode t node nodes) :=
  (h.trans (keeps_mapChildren _ s₀)).push t rfl

theorem keeps_controlLine {s s' : Scope} {t : Token} (h : s.controlLine t = .ok s') :
    s.Keeps s' := by
  unfold controlLine at h
  split at h
  · cases h
    exact keeps_openNode (.refl s) t _ _
  · cases h
    exact keeps_openNode (.refl s) t _ _
  · cases h
    exact (keeps_mapChildren _ s).push t rfl
  · unfold openAlternate at h
    split_ifs at h
    cases h
    exact (Keeps.refl s).push t rfl
  · cases h

theorem keeps_markupLine (s : Scope) (t : Token) : s.Keeps (s.markupLine t) := by
  unfold markupLine
  split
  · next name _ _ =>
    have hslot : s.Keeps (s.registerSlot name) :=
      keeps_of_outline (Manifest.adds_nil rfl rfl rfl rfl) rfl
    exact hslot.trans (keeps_mapChildren _ _)
  · next e _ =>
    have href : s.Keeps ((e.ref.map s.registerRef).getD s) := by
      cases e.ref with
      | none => exact .refl s
      | some ref => exact keeps_of_outline (Manifest.adds_nil rfl rfl rfl rfl) rfl
    dsimp only
    split_ifs
    · exact keeps_openNode href t _ _
    · exact href.trans (keeps_mapChildren _ _)

theorem keeps_nodeLine {s s' : Scope} {t : Token} (h : s.nodeLine t = .ok s') : s.Keeps s' := by
  unfold nodeLine at h
  split_ifs at h
  · exact keeps_controlLine h
  · cases h
    exact keeps_markupLine s t
  · cases h
    exact keeps_mapChildren _ s

theorem keeps_styleLine {s s' : Scope} {t : Token} (h : s.styleLine t = .ok s') : s.Keeps s' := by
  unfold styleLine at h
  split_ifs at h
  · cases h
    have hrules : s.Keeps { s with manifest := { s.manifest with
        styleRules := s.manifest.styleRules ++ [⟨Text.trim t.text.dropLast, [], t.line⟩] } } :=
      keeps_of_outline (Manifest.adds_nil rfl rfl rfl rfl) rfl
    exact hrules.push t rfl
  · split at h
    · next hframes =>
      cases h
      exact keeps_of_outline (.refl _) (by simp [outline, hframes, Frame.bare, Block.bare])
    · cases h

theorem keeps_place {s s' : Scope} {t : Token} (h : s.place t = .ok s') : s.Keeps s' := by
  unfold place at h
  split at h
  · exact keeps_styleLine h
  · exact keeps_styleLine h
  · rw [branchLine_eq] at h
    split at h
    · cases h
      exact (Keeps.refl s).push t rfl
    · cases h
  · cases h
  · exact keeps_nodeLine h

theorem adds_declare? {m m' : Manifest} {t : Token} (h : m.declare? t = some m') :
    m.Adds [] m' := by
  unfold Manifest.declare? at h
  split at h
  iterate 6
    · obtain ⟨_, _, rfl⟩ := Option.map_eq_some_iff.1 h
      exact Manifest.adds_nil rfl rfl rfl rfl
  · cases h

theorem keeps_declare {s s' : Scope} {t : Token} (h : s.declare t = .ok s') : s.Keeps s' := by
  unfold declare at h
  split at h
  · next hm =>
    cases h
    exact keeps_of_outline (adds_declare? hm) rfl
  · cases h

/-- A line that opens neither logic nor a head adds no entry. -/
theorem keeps_route {s s' : Scope} {t : Token} (hopener : s.opener? t = none)
    (hhead : t.category ≠ .head) (h : s.route t = .ok s') : s.Keeps s' := by
  unfold opener? at hopener
  unfold route at h
  cases hc : t.category with
  | component | memory | use | prop | state | derived =>
    simp only [hc] at h
    exact keeps_declare h
  | function =>
    simp only [hc, Option.map_eq_none_iff] at h hopener
    simp only [openFunction, hopener] at h
    cases h
  | mount => simp [hc] at hopener
  | watch =>
    simp only [hc, Option.map_eq_none_iff] at h hopener
    simp only [openWatcher, hopener] at h
    cases h
  | persona =>
    simp only [hc, Option.map_eq_none_iff] at h hopener
    simp only [openPersona, hopener] at h
    cases h
  | head => exact absurd hc hhead
  | style | suite | view =>
    simp only [hc] at h
    cases h
    exact (Keeps.refl s).push t rfl
  | control | element | assertion | expression =>
    simp only [hc] at h
    exact keeps_place h

theorem dispatch_of_outside {s : Scope} (hs : s.Outside) (t : Token) :
    s.dispatch t = s.route t := by
  unfold dispatch top?
  cases hframes : s.frames with
  | nil => rfl
  | cons f rest =>
    have hf := hs f (by simp [hframes])
    obtain ⟨depth, line, block⟩ := f
    cases block with
    | mount => cases hf
    | logic owner items => cases hf
    | head lines => cases hf
    | _ => rfl

theorem keeps_step {s : Scope} {t : Token} (hs : (s.closeTo t.depth).Outside)
    (hopener : (s.closeTo t.depth).opener? t = none) (hhead : t.category ≠ .head) :
    (s.closeTo t.depth).Keeps (s.step t).1 := by
  unfold step
  split
  · next h =>
    rw [dispatch_of_outside hs] at h
    exact keeps_route hopener hhead h
  · exact .refl _

/-! ## Lines that keep what is under them -/

theorem mapBody_push_logic (s : Scope) (t : Token) (owner : LogicOwner) (body items : List LogicItem) :
    (s.push t (.logic owner body)).mapBody (· ++ items) =
      s.push t (.logic owner (body ++ items)) := rfl

theorem mapBody_push_mount (s : Scope) (t : Token) (items : List LogicItem) :
    (s.push t .mount).mapBody (· ++ items) =
      Scope.push { s with manifest := { s.manifest with
        lifecycle := s.manifest.lifecycle ++ items } } t .mount := rfl

/-- An opener adds its entry, and a block that gathers the body. -/
theorem exists_opened {s : Scope} {t : Token} {entry : List LogicItem → LogicEntry}
    (h : s.opener? t = some entry) :
    ∃ s₁, s.route t = .ok s₁ ∧ s₁.Bodied t.depth ∧ ∀ items, ∃ s₀ block,
      s₁.mapBody (· ++ items) = s₀.push t block ∧ s₀.outline = s.outline ∧
      s.manifest.Adds [entry items] (publish ⟨t.depth, t.line, block⟩ s₀).manifest := by
  unfold opener? at h
  unfold route
  cases hc : t.category with
  | function =>
    simp only [hc, Option.map_eq_some_iff] at h
    obtain ⟨⟨name, params⟩, hheader, rfl⟩ := h
    simp only [openFunction, hheader]
    refine ⟨_, rfl, bodied_push _ t rfl, fun items =>
      ⟨_, _, mapBody_push_logic _ t _ _ items, rfl, ?_⟩⟩
    exact ⟨modify_concat _ _ _, (List.append_nil _).symm, (List.append_nil _).symm,
      (List.append_nil _).symm⟩
  | mount =>
    simp only [hc, Option.some.injEq] at h
    subst h
    refine ⟨_, rfl, bodied_push _ t rfl, fun items =>
      ⟨_, _, mapBody_push_mount _ t items, rfl, ?_⟩⟩
    exact ⟨(List.append_nil _).symm, (List.append_nil _).symm, (List.append_nil _).symm,
      by simp [LogicEntry.lifecycle, publish]⟩
  | watch =>
    simp only [hc, Option.map_eq_some_iff] at h
    obtain ⟨dependency, hheader, rfl⟩ := h
    simp only [openWatcher, hheader]
    refine ⟨_, rfl, bodied_push _ t rfl, fun items =>
      ⟨_, _, mapBody_push_logic _ t _ _ items, rfl, ?_⟩⟩
    exact ⟨(List.append_nil _).symm, modify_concat _ _ _, (List.append_nil _).symm,
      (List.append_nil _).symm⟩
  | persona =>
    simp only [hc, Option.map_eq_some_iff] at h
    obtain ⟨persona, hheader, rfl⟩ := h
    simp only [openPersona, hheader]
    refine ⟨_, rfl, bodied_push _ t rfl, fun items =>
      ⟨_, _, mapBody_push_logic _ t _ _ items, rfl, ?_⟩⟩
    exact ⟨(List.append_nil _).symm, (List.append_nil _).symm, modify_concat _ _ _,
      (List.append_nil _).symm⟩
  | _ => simp [hc] at h

theorem not_outside_push (s : Scope) (t : Token) {block : Block} (hb : block.isVerbatim) :
    ¬ (s.push t block).Outside := by
  intro h
  have := h ⟨t.depth, t.line, block⟩ (by simp [push])
  rw [hb] at this
  cases this

theorem Bodied.not_outside {s : Scope} {d : Int} (h : s.Bodied d) : ¬ s.Outside := by
  intro hs
  have hlogic := h.inLogic
  unfold InLogic top? at hlogic
  cases hframes : s.frames with
  | nil => simp [hframes] at hlogic
  | cons f rest =>
    have hf := hs f (by simp [hframes])
    rw [Block.isVerbatim_of_isLogic (by simpa [hframes] using hlogic)] at hf
    cases hf

/-- A token that opens logic or a head swallows the tokens under it. When they are through, the
blocks around are as they were, and the entry of the token has its body. -/
theorem exists_swallowed {s : Scope} {t : Token} (ts : List Token) (hs : s.Outside)
    (hshallow : ∀ f ∈ s.outline.head?, f.depth < t.depth)
    (h : (s.opener? t).isSome ∨ t.category = .head) :
    ∃ s₁, s.dispatch t = .ok s₁ ∧ ¬ s₁.Outside ∧
      ((s₁.run (under t ts)).closeTo t.depth).outline = s.outline ∧
      s.manifest.Adds ((s.opener? t).map fun entry => entry (logicItems (under t ts))).toList
        ((s₁.run (under t ts)).closeTo t.depth).manifest := by
  rw [dispatch_of_outside hs]
  rcases h with h | h
  · obtain ⟨entry, hentry⟩ := Option.isSome_iff_exists.1 h
    obtain ⟨s₁, hroute, hbodied, hbody⟩ := exists_opened hentry
    obtain ⟨s₀, block, hpush, houtline, hadds⟩ := hbody (logicItems (under t ts))
    have hrun := run_inLogic hbodied (under t ts) fun u hu => depth_of_mem_under hu
    rw [hpush] at hrun
    rw [← houtline] at hshallow
    refine ⟨s₁, hroute, hbodied.not_outside, ?_⟩
    rw [closeTo_run_under hshallow hrun, outline_publish, hentry]
    exact ⟨houtline, hadds⟩
  · have hrun := run_inHead s [] (under t ts) fun u hu => depth_of_mem_under hu
    have hnone : s.opener? t = none := by simp [opener?, h]
    have hclosed : ((s.push t (.head [])).run (under t ts)).closeTo (t.depth + 1) =
        s.push t (.head ([] ++ (under t ts).map (headText t.depth))) := by
      rw [hrun]
      exact closeTo_succ (by simp)
    refine ⟨s.push t (.head []), by simp [route, h], not_outside_push s t rfl, ?_⟩
    rw [closeTo_run_under hshallow hclosed, outline_publish, hnone]
    exact ⟨rfl, Manifest.adds_nil rfl rfl rfl rfl⟩

/-! ## From one position outside to the next -/

section

variable {ts : List Token} {k : Nat} {t : Token}

theorem getElem?_run (ts : List Token) (k : Nat) (t : Token) (j : Nat) :
    ts[k + 1 + j]? = (under t (ts.drop (k + 1)) ++ past t (ts.drop (k + 1)))[j]? := by
  rw [under_append_past, List.getElem?_drop]

theorem before_under (ts : List Token) (k : Nat) (t : Token) :
    before ts (k + 1 + (under t (ts.drop (k + 1))).length) =
      (before ts (k + 1)).run (under t (ts.drop (k + 1))) := by
  have htake : under t (ts.drop (k + 1)) =
      (ts.drop (k + 1)).take (under t (ts.drop (k + 1))).length :=
    List.prefix_iff_eq_take.1 (List.takeWhile_prefix _)
  rw [before, before, ← run_append, List.take_add]
  conv_rhs => rw [htake]

/-- The position after the tokens under a token is not deeper than it. -/
theorem depthAt_past (ht : 0 ≤ t.depth) :
    depthAt ts (k + 1 + (under t (ts.drop (k + 1))).length) ≤ t.depth := by
  have hget := getElem?_run ts k t (under t (ts.drop (k + 1))).length
  rw [List.getElem?_append_right (Nat.le_refl _), Nat.sub_self, ← List.head?_eq_getElem?] at hget
  rw [depthAt, hget]
  cases hpast : (past t (ts.drop (k + 1))).head? with
  | none =>
    simp only [Option.map_none, Option.getD_none, rootDepth]
    omega
  | some u => exact depth_of_mem_head_past hpast

/-- A token encloses the tokens under it. -/
theorem encloses_of_under (ht : ts[k]? = some t) {j : Nat} (hkj : k < j)
    (hj : j < k + 1 + (under t (ts.drop (k + 1))).length) : Encloses ts k j := by
  have hdeep : ∀ i, k < i → i ≤ j → depthAt ts k < depthAt ts i := by
    intro i hki hij
    obtain ⟨i, rfl⟩ : ∃ i', i = k + 1 + i' := ⟨i - (k + 1), by omega⟩
    have hget := getElem?_run ts k t i
    have hi : i < (under t (ts.drop (k + 1))).length := by omega
    rw [List.getElem?_append_left hi, List.getElem?_eq_getElem hi] at hget
    rw [depthAt_of_getElem? ht, depthAt_of_getElem? hget]
    exact depth_of_mem_under (List.getElem_mem hi)
  exact ⟨hdeep j hkj (Nat.le_refl j), fun i hi hki => hdeep i hki (by omega)⟩

/-- What a token swallows stands in the block that it has opened. -/
theorem not_outside_around {j : Nat} (hj : j ≤ ts.length) (hk : ts[k]? = some t) (hkj : k < j)
    (henc : Encloses ts k j) (hs : (around ts k).Outside) (hs' : ¬ (before ts (k + 1)).Outside) :
    ¬ (around ts j).Outside := by
  intro h
  obtain ⟨hcons, _⟩ := pushedAt_cases hk
  refine hs' ((outside_iff _).2 fun f hf => ?_)
  rw [hcons, List.mem_append] at hf
  rcases hf with hf | hf
  · refine (outside_iff _).1 h f ?_
    rw [← List.mem_reverse, (told hj).outline_around hj]
    refine List.mem_flatMap.2 ⟨k, ?_, hf⟩
    simp [hkj, henc]
  · exact (outside_iff _).1 hs f hf

theorem shallow_closeTo (depth : Int) (s : Scope) :
    ∀ f ∈ (s.closeTo depth).outline.head?, f.depth < depth := by
  intro f hf
  have hnot := List.head?_dropWhile_not (fun f : Frame => decide (depth ≤ f.depth)) s.outline
  rw [outline_closeTo] at hf
  rw [Option.mem_def.1 hf] at hnot
  simpa using hnot

theorem entryAt?_of_outside (ht : ts[k]? = some t) (hs : (around ts k).Outside) :
    entryAt? ts k = ((around ts k).opener? t).map fun entry =>
      entry (logicItems (under t (ts.drop (k + 1)))) := by
  rw [entryAt?, ht, Option.bind_some, if_pos hs]

theorem entryAt?_of_not_outside (hs : ¬ (around ts k).Outside) : entryAt? ts k = none := by
  unfold entryAt?
  cases ts[k]? with
  | none => rfl
  | some t => rw [Option.bind_some, if_neg hs]

theorem adds_swallowed (ht : ts[k]? = some t) (hd : 0 ≤ t.depth) (hs : (around ts k).Outside)
    (h : ((around ts k).opener? t).isSome ∨ t.category = .head) :
    let n := (under t (ts.drop (k + 1))).length
    (around ts (k + 1 + n)).Outside ∧
      (around ts k).manifest.Adds ((List.range' k (n + 1)).filterMap (entryAt? ts))
        (around ts (k + 1 + n)).manifest := by
  intro n
  have hclosing := around_eq ht
  have hshallow : ∀ f ∈ (around ts k).outline.head?, f.depth < t.depth := by
    rw [hclosing]
    exact shallow_closeTo _ _
  obtain ⟨s₁, hdispatch, hinside, houtline, hadds⟩ :=
    exists_swallowed (ts.drop (k + 1)) hs hshallow h
  have hbefore : before ts (k + 1) = s₁ := by
    rw [before_succ ht, step, ← hclosing, hdispatch]
  have hnext : around ts (k + 1 + n) =
      ((s₁.run (under t (ts.drop (k + 1)))).closeTo t.depth).closeTo (depthAt ts (k + 1 + n)) := by
    rw [closeTo_closeTo (depthAt_past hd), ← hbefore, ← before_under]
    rfl
  have hkeeps := keeps_closeTo (depthAt ts (k + 1 + n)) ((outside_congr houtline).2 hs)
  rw [← hnext] at hkeeps
  -- the tokens under `t` add nothing, as they stand in the block of `t`
  have hrest : (List.range' (k + 1) n).filterMap (entryAt? ts) = [] := by
    rw [List.filterMap_eq_nil_iff]
    intro j hj
    have hj := List.mem_range'_1.1 hj
    have hlength : n ≤ (ts.drop (k + 1)).length := length_under_le _ _
    rw [List.length_drop] at hlength
    exact entryAt?_of_not_outside (not_outside_around (by omega) ht (by omega)
      (encloses_of_under ht (by omega) (by omega)) hs (hbefore ▸ hinside))
  refine ⟨hkeeps.outside ((outside_congr houtline).2 hs), ?_⟩
  have hall := hadds.trans hkeeps.logic
  rw [List.append_nil, ← entryAt?_of_outside ht hs] at hall
  rw [List.range'_succ, List.filterMap_cons, hrest]
  cases hentry : entryAt? ts k with
  | none => rwa [hentry] at hall
  | some entry => rwa [hentry] at hall

theorem adds_plain (ht : ts[k]? = some t) (hs : (around ts k).Outside)
    (hopener : (around ts k).opener? t = none) (hhead : t.category ≠ .head) :
    (around ts (k + 1)).Outside ∧
      (around ts k).manifest.Adds ([k].filterMap (entryAt? ts)) (around ts (k + 1)).manifest := by
  have hclosing := around_eq ht
  have hkeeps : (around ts k).Keeps (before ts (k + 1)) := by
    rw [before_succ ht, hclosing]
    rw [hclosing] at hs hopener
    exact keeps_step hs hopener hhead
  have hkeeps' := hkeeps.trans (keeps_closeTo (depthAt ts (k + 1)) (hkeeps.outside hs))
  have hentry : entryAt? ts k = none := by
    rw [entryAt?_of_outside ht hs, hopener]
    rfl
  rw [List.filterMap_cons, hentry]
  exact ⟨hkeeps'.outside hs, hkeeps'.logic⟩

/-- From a position outside of logic and heads, the next such position is that after the token, or
after all that it swallows. In between the entry of the token is added, and no other. -/
theorem adds_step (hd : ∀ t ∈ ts, 0 ≤ t.depth) (hk : k < ts.length) (hs : (around ts k).Outside) :
    ∃ n, k + 1 + n ≤ ts.length ∧ (around ts (k + 1 + n)).Outside ∧
      (around ts k).manifest.Adds ((List.range' k (n + 1)).filterMap (entryAt? ts))
        (around ts (k + 1 + n)).manifest := by
  have ht := List.getElem?_eq_getElem hk
  have hdepth := hd _ (List.getElem_mem hk)
  generalize ts[k] = t at ht hdepth
  by_cases h : ((around ts k).opener? t).isSome ∨ t.category = .head
  · refine ⟨(under t (ts.drop (k + 1))).length, ?_, adds_swallowed ht hdepth hs h⟩
    have hlength := length_under_le t (ts.drop (k + 1))
    rw [List.length_drop] at hlength
    omega
  · obtain ⟨hopener, hhead⟩ := not_or.1 h
    rw [Bool.not_eq_true, Option.isSome_eq_false_iff, Option.isNone_iff_eq_none] at hopener
    exact ⟨0, hk, adds_plain ht hs hopener hhead⟩

/-- From a position outside of logic and heads to the end, the entries of the positions are added. -/
theorem adds_run (hd : ∀ t ∈ ts, 0 ≤ t.depth) {n : Nat} (hn : k + n = ts.length)
    (hs : (around ts k).Outside) :
    (around ts k).manifest.Adds ((List.range' k n).filterMap (entryAt? ts))
      (around ts ts.length).manifest := by
  induction n using Nat.strong_induction_on generalizing k with
  | _ n ih =>
    cases n with
    | zero =>
      rw [← hn]
      exact .refl _
    | succ n =>
      obtain ⟨m, hm, hs', hadds⟩ := adds_step hd (show k < ts.length by omega) hs
      have hrest := ih (n - m) (by omega) (show k + 1 + m + (n - m) = ts.length by omega) hs'
      have hrange : List.range' k (n + 1) =
          List.range' k (m + 1) ++ List.range' (k + 1 + m) (n - m) := by
        rw [show k + 1 + m = k + (m + 1) by omega, List.range'_append_1]
        congr 1
        omega
      rw [hrange, List.filterMap_append]
      exact hadds.trans hrest

end

end Scope

/-- **Bodies of logic are kept and nested by depth.** The functions, watchers and tests of a manifest
are those that openers outside of logic and heads declare, in order. The body of each is what stands
on its own line, if this can hold anything, and then what the deeper tokens after it make. The mount
hook has the bodies of its openers one after the other. -/
theorem logic_buildManifest (ts : List Token) (c : Companions) (hd : ∀ t ∈ ts, 0 ≤ t.depth) :
    let entries := (List.range ts.length).filterMap (entryAt? ts)
    (buildManifest ts c).functions = entries.flatMap LogicEntry.functions ∧
    (buildManifest ts c).watchers = entries.flatMap LogicEntry.watchers ∧
    (buildManifest ts c).tests = entries.flatMap LogicEntry.tests ∧
    (buildManifest ts c).lifecycle = entries.flatMap LogicEntry.lifecycle := by
  intro entries
  have hstart : Scope.around ts 0 = Scope.start := Scope.closeTo_of_lt (by rintro f ⟨⟩)
  have hend : buildManifest ts c = (Scope.around ts ts.length).manifest.withCompanions c := by
    rw [Scope.around, depthAt_length, Scope.before, List.take_length]
    rfl
  have hadds := Scope.adds_run (k := 0) hd (Nat.zero_add _) (by rw [hstart]; rintro f ⟨⟩)
  rw [hstart, ← List.range_eq_range'] at hadds
  rw [hend]
  exact ⟨hadds.functions, hadds.watchers, hadds.tests, hadds.lifecycle⟩

/-- A function with a condition in it, a watcher, a mount hook in two parts, and a test in a suite. The
second function stands in the mount hook, the third in a head. -/
def errands : List Token := [
  ⟨1, 0, .function, "fn save(x):".toList, "fn save(x):".toList, 0⟩,
  ⟨2, 4, .control, "if x:".toList, "    if x:".toList, 1⟩,
  ⟨3, 8, .state, "$n = 1".toList, "        $n = 1".toList, 2⟩,
  ⟨4, 4, .assertion, "must x".toList, "    must x".toList, 1⟩,
  ⟨5, 0, .mount, "on mount: go()".toList, "on mount: go()".toList, 0⟩,
  ⟨6, 4, .function, "fn load()".toList, "    fn load()".toList, 1⟩,
  ⟨7, 0, .head, "head:".toList, "head:".toList, 0⟩,
  ⟨8, 4, .function, "fn lost()".toList, "    fn lost()".toList, 1⟩,
  ⟨9, 0, .watch, "on change n: a()".toList, "on change n: a()".toList, 0⟩,
  ⟨10, 4, .element, "p: b".toList, "    p: b".toList, 1⟩,
  ⟨11, 0, .mount, "on mount:".toList, "on mount:".toList, 0⟩,
  ⟨12, 4, .expression, "stop()".toList, "    stop()".toList, 1⟩,
  ⟨13, 0, .suite, "test cart:".toList, "test cart:".toList, 0⟩,
  ⟨14, 4, .persona, "@logic:".toList, "    @logic:".toList, 1⟩,
  ⟨15, 8, .expression, "save(1)".toList, "        save(1)".toList, 2⟩,
  ⟨16, 8, .assertion, "must n == 1".toList, "        must n == 1".toList, 2⟩]

set_option maxRecDepth 10000 in
/-- One function is declared, and one test. All other lines are kept where they stand. -/
theorem logic_buildManifest_errands :
    (buildManifest errands {}).functions =
      [⟨"save".toList, ["x".toList],
        [.block "if x:".toList [.line "$n = 1".toList 3] 2, .assertion "x".toList 4], 1⟩] ∧
    ((List.range errands.length).filterMap (entryAt? errands)).flatMap LogicEntry.functions =
      (buildManifest errands {}).functions ∧
    ((List.range errands.length).filterMap (entryAt? errands)).flatMap LogicEntry.watchers =
      [⟨"n".toList, [.line "a()".toList 9, .line "p: b".toList 10], 9⟩] ∧
    ((List.range errands.length).filterMap (entryAt? errands)).flatMap LogicEntry.tests =
      [⟨.logic, some "cart".toList,
        [.line "save(1)".toList 15, .assertion "n == 1".toList 16], 14⟩] ∧
    ((List.range errands.length).filterMap (entryAt? errands)).flatMap LogicEntry.lifecycle =
      [.line "go()".toList 5, .line "fn load()".toList 6, .line "stop()".toList 12] := by
  obtain ⟨hfunctions, hwatchers, htests, hlifecycle⟩ := logic_buildManifest errands {} (by decide)
  exact ⟨rfl, hfunctions.symm, hwatchers.symm.trans rfl, htests.symm.trans rfl,
    hlifecycle.symm.trans rfl⟩

end ComponentLang
