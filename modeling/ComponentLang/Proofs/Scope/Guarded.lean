import ComponentLang.Proofs.Scope.Needs
import ComponentLang.Proofs.Scope.Sketch

/-!
# Building without faults

A block that closes takes its place in a list for granted, and so does a line that the innermost
block is there. The guarded build takes nothing for granted: it keeps a mark for the root and for
each open block, and gives up where something is missing or not what it was. It has limits as well.

* `Fault` : why a guarded build gives up;
* `Guarded` : a scope with the marks, which say over which kind of item each block was opened;
* `Guarded.closeTop` : closes a block, if the item at its place is still of the marked kind, and of
  a kind that the block can fill in;
* `Guarded.step` : takes a token, if something is left open for it, the root at least;
* `Marked` : the marks tell what is found at the places of the open blocks;
* `Abreast` : a guarded run and one without guards have come to the same scope, or to the same limit;
* `guardedBuild_eq` : whatever the tokens, nothing is ever missing, and the guarded build gives the
  manifest of the build without guards and limits, unless something that the lines ask for exceeds
  the limits;
* `guardedBuild_standard` : two programs that the standard limits are too narrow for.
-/

namespace ComponentLang

/-- Why a build gives up. -/
inductive Fault where
  /-- Something that is taken for granted is missing, or is not what it was. -/
  | lost
  /-- A limit is in the way. -/
  | excess (e : Excess)
deriving DecidableEq, Repr

/-- A scope with the kind of item that each block was opened over, innermost first. The last mark is
that of the root. -/
structure Guarded where
  scope : Scope
  marks : List (Option ItemKind)

namespace Guarded

/-- Nothing read yet: the root alone is open. -/
def start : Guarded := ⟨.start, [none]⟩

/-- Closes the innermost block. This takes a block above the root, and at its place an item of the
kind that it was opened over, which it can fill in. -/
def closeTop (l : Limits) (g : Guarded) : Except Fault Guarded :=
  match g.scope.frames, g.marks with
  | f :: rest, k :: marks =>
    if f.block.item? ⟨g.scope.manifest, rest⟩ = k && f.block.fits k then
      ((g.scope.closeTopWithin l).mapError Fault.excess).map (⟨·, marks⟩)
    else .error .lost
  | _, _ => .error .lost

/-- Closes the innermost blocks, so many of them. -/
def closeMany (l : Limits) : Nat → Guarded → Except Fault Guarded
  | 0, g => .ok g
  | n + 1, g => (g.closeTop l).bind (closeMany l n)

/-- Closes the innermost blocks as long as they are as deep as `depth`, or deeper. -/
def closeTo (l : Limits) (depth : Int) (g : Guarded) : Except Fault Guarded :=
  closeMany l (g.scope.frames.takeWhile (depth ≤ ·.depth)).length g

/-- Goes on with a scope in which one more block may be open, and marks this block. -/
def follow (g : Guarded) (s : Scope) : Guarded :=
  match s.frames with
  | f :: rest =>
    if g.scope.frames.length ≤ rest.length then
      ⟨s, f.block.item? ⟨s.manifest, rest⟩ :: g.marks⟩
    else ⟨s, g.marks⟩
  | [] => ⟨s, g.marks⟩

/-- Sends a token to what is innermost, which has to be there. -/
def dispatch (l : Limits) (t : Token) (g : Guarded) : Except Fault Guarded :=
  match g.marks with
  | [] => .error .lost
  | _ :: _ =>
    ((g.scope.dispatchWithin l t).mapError Fault.excess).map fun
      | .ok s => g.follow s
      | .error _ => g

/-- Takes one token. -/
def step (l : Limits) (g : Guarded) (t : Token) : Except Fault Guarded :=
  (g.closeTo l t.depth).bind (dispatch l t)

/-- Takes tokens in turn. -/
def run (l : Limits) : Guarded → List Token → Except Fault Guarded
  | g, [] => .ok g
  | g, t :: ts => (g.step l t).bind (run l · ts)

end Guarded

/-- The manifest of tokens with their depths, unless something is missing or a limit is in the
way. -/
def guardedBuild (l : Limits) (ts : List Token) (c : Companions) : Except Fault Manifest :=
  ((Guarded.start.run l ts).bind (Guarded.closeTo l (-1))).map fun g =>
    g.scope.manifest.withCompanions c

/-! ## What the marks tell -/

/-- At the place of each open block stands an item of the marked kind, and the block can fill it in.
The root is below all blocks. -/
inductive Marked (m : Manifest) : List Frame → List (Option ItemKind) → Prop
  | root : Marked m [] [none]
  | block {f : Frame} {rest : List Frame} {k : Option ItemKind} {marks : List (Option ItemKind)} :
    Marked m rest marks → f.block.item? ⟨m, rest⟩ = k → f.block.fits k →
      Marked m (f :: rest) (k :: marks)

theorem Marked.ne_nil {m : Manifest} {frames : List Frame} {marks : List (Option ItemKind)}
    (h : Marked m frames marks) : marks ≠ [] := by
  cases h <;> exact List.cons_ne_nil _ _

/-- The marks still tell the truth when lists have grown. -/
theorem Marked.grows {s s' : Scope} {marks : List (Option ItemKind)}
    (h : Marked s.manifest s.frames marks) (hg : s.Grows s') :
    Marked s'.manifest s'.frames marks := by
  obtain ⟨m, frames⟩ := s
  obtain ⟨m', frames'⟩ := s'
  obtain ⟨hm, hframes⟩ := hg
  dsimp only at h hm hframes ⊢
  induction hframes generalizing marks with
  | nil =>
    cases h
    exact .root
  | @cons f f' rest rest' hf hrest ih =>
    cases h with
    | block hbelow hitem hfits =>
      have hsame : Scope.Grows ⟨m, rest⟩ ⟨m', rest'⟩ := ⟨hm, hrest⟩
      obtain ⟨hitem', hfits'⟩ := hsame.item? hf (hitem ▸ hfits)
      exact .block (ih hbelow) (hitem'.trans hitem) (by rwa [hitem', hitem] at hfits')

namespace Guarded

/-- The marks of a guarded scope tell what its blocks find. -/
def Sound (g : Guarded) : Prop := Marked g.scope.manifest g.scope.frames g.marks

theorem sound_start : Sound start := .root

/-! ## Keeping pace -/

/-- The guarded run has come to the same scope as the run without guards, with marks that tell what
its blocks find, or both have run into the same limit. -/
inductive Abreast : Except Fault Guarded → Except Excess Scope → Prop
  | ok {g : Guarded} (h : g.Sound) : Abreast (.ok g) (.ok g.scope)
  | error (e : Excess) : Abreast (.error (.excess e)) (.error e)

theorem Abreast.bind {r : Except Fault Guarded} {w : Except Excess Scope} (h : Abreast r w)
    {f : Guarded → Except Fault Guarded} {f' : Scope → Except Excess Scope}
    (hf : ∀ g : Guarded, g.Sound → w = .ok g.scope → Abreast (f g) (f' g.scope)) :
    Abreast (r.bind f) (w.bind f') := by
  cases h with
  | ok h => exact hf _ h rfl
  | error e => exact .error e

theorem Abreast.map {α : Type} {r : Except Fault Guarded} {w : Except Excess Scope}
    (h : Abreast r w) (f : Scope → α) :
    r.map (fun g => f g.scope) = (w.map f).mapError Fault.excess := by
  cases h <;> rfl

/-- A sound scope with a block above the root lets it close. -/
theorem Sound.closeTop {g : Guarded} (h : g.Sound) (l : Limits) (hopen : g.scope.frames ≠ []) :
    Abreast (g.closeTop l) (g.scope.closeTopWithin l) := by
  obtain ⟨⟨m, frames⟩, marks⟩ := g
  cases h with
  | root => exact absurd rfl hopen
  | @block f rest k marks hbelow hitem hfits =>
    have hguards : Guarded.closeTop l ⟨⟨m, f :: rest⟩, k :: marks⟩ =
        ((Scope.closeTopWithin l ⟨m, f :: rest⟩).mapError Fault.excess).map (⟨·, marks⟩) := by
      simp [Guarded.closeTop, hitem, hfits]
    have hg := Scope.grows_closeTop (show Scope.frames ⟨m, f :: rest⟩ = f :: rest from rfl)
    have hclosed : Sound ⟨Scope.closeTop ⟨m, f :: rest⟩, marks⟩ := hbelow.grows hg
    rw [hguards, Scope.closeTopWithin_eq]
    rcases l.grant_cases (Scope.closeTopNeeds ⟨m, f :: rest⟩) (Scope.closeTop ⟨m, f :: rest⟩) with
      heq | ⟨e, heq⟩
    · rw [heq]
      exact .ok hclosed
    · rw [heq]
      exact .error e

theorem Sound.closeMany {g : Guarded} (h : g.Sound) (l : Limits) {n : Nat}
    (hn : n ≤ g.scope.frames.length) :
    Abreast (closeMany l n g) (g.scope.closeManyWithin l n) := by
  induction n generalizing g with
  | zero => exact .ok h
  | succ n ih =>
    have hopen : g.scope.frames ≠ [] := by
      intro hnil
      rw [hnil] at hn
      cases hn
    refine (h.closeTop l hopen).bind fun g' hg' heq => ih hg' ?_
    rw [Scope.closeTopWithin_eq] at heq
    rw [l.eq_of_grant heq, ← Scope.length_outline, Scope.outline_closeTop, List.length_tail,
      Scope.length_outline]
    omega

/-- A sound scope lets all blocks close that a depth asks for. The root is not among them. -/
theorem Sound.closeTo {g : Guarded} (h : g.Sound) (l : Limits) (depth : Int) :
    Abreast (g.closeTo l depth) (g.scope.closeToWithin l depth) :=
  h.closeMany l (List.takeWhile_sublist _).length_le

/-! ## Lines -/

theorem Sound.follow {g : Guarded} (h : g.Sound) {t : Token} {s : Scope}
    (hs : Scope.Opens t g.scope s) : (g.follow s).Sound ∧ (g.follow s).scope = s := by
  obtain hg | ⟨s₀, block, hg, rfl, hfits⟩ := hs
  · have hlength : g.scope.frames.length = s.frames.length := hg.frames.length_eq
    have hmarked : Marked s.manifest s.frames g.marks := Marked.grows h hg
    have hfollow : g.follow s = ⟨s, g.marks⟩ := by
      unfold Guarded.follow
      split
      · next f rest hframes =>
        rw [hframes, List.length_cons] at hlength
        rw [if_neg (by omega)]
      · rfl
    rw [hfollow]
    exact ⟨hmarked, rfl⟩
  · have hlength : g.scope.frames.length = s₀.frames.length := hg.frames.length_eq
    have hmarked : Marked s₀.manifest s₀.frames g.marks := Marked.grows h hg
    have hfollow : g.follow (s₀.push t block) =
        ⟨s₀.push t block, block.item? s₀ :: g.marks⟩ := if_pos hlength.le
    rw [hfollow]
    exact ⟨.block hmarked rfl hfits, rfl⟩

/-- A sound scope has something open for every line. -/
theorem Sound.dispatch {g : Guarded} (h : g.Sound) (l : Limits) (t : Token) :
    Abreast (dispatch l t g) ((g.scope.dispatchWithin l t).map g.scope.orKeep) := by
  unfold Guarded.dispatch
  split
  · next hmarks => exact absurd hmarks h.ne_nil
  · rw [Scope.dispatchWithin_eq]
    rcases l.grant_cases (g.scope.lineNeeds t) (g.scope.dispatch t) with heq | ⟨e, heq⟩
    · rw [heq]
      cases hline : g.scope.dispatch t with
      | ok s =>
        obtain ⟨hsound, hs⟩ := h.follow (Scope.dispatch_opens hline)
        have habreast := Abreast.ok hsound
        rwa [hs] at habreast
      | error reason => exact .ok h
    · rw [heq]
      exact .error e

theorem Sound.step {g : Guarded} (h : g.Sound) (l : Limits) (t : Token) :
    Abreast (g.step l t) (g.scope.stepWithin l t) :=
  (h.closeTo l t.depth).bind fun _ hclosed _ => hclosed.dispatch l t

theorem Sound.run {g : Guarded} (h : g.Sound) (l : Limits) (ts : List Token) :
    Abreast (g.run l ts) (g.scope.runWithin l ts) := by
  induction ts generalizing g with
  | nil => exact .ok h
  | cons t ts ih => exact (h.step l t).bind fun _ hg _ => ih hg

end Guarded

/-- The guards of a build are never in the way. -/
theorem guardedBuild_eq_mapError (l : Limits) (ts : List Token) (c : Companions) :
    guardedBuild l ts c = (buildWithin l ts c).mapError Fault.excess := by
  have hrun := (Guarded.sound_start.run l ts).bind fun g hg _ => hg.closeTo l (-1)
  exact hrun.map fun s => s.manifest.withCompanions c

/-- **What a build may fail on.** Whatever the depths, categories and texts of the tokens are, each
block that closes finds at its place an item of the kind that it was opened over and that it can fill
in, and each token finds something open. So nothing but the limits is in the way of the manifest: it
is given unless a need exceeds them, and then the first such need tells what was exceeded. A branch
asks for no more calls than there are alternates among the lines, and a line of a head for the blanks
between its own depth and that of another line. -/
theorem guardedBuild_eq (l : Limits) (ts : List Token) (c : Companions) :
    (guardedBuild l ts c =
      match (buildNeeds ts).findSome? l.excess? with
      | none => .ok (buildManifest ts c)
      | some e => .error (.excess e)) ∧
    (∀ n, .calls n ∈ buildNeeds ts → n ≤ ts.countP Token.isAlternate) ∧
    ∀ n, .blanks n ∈ buildNeeds ts → ∃ t ∈ ts, ∃ u ∈ ts, n = Scope.headBlanks t.depth u := by
  refine ⟨?_, fun n hn => isOf_of_mem_buildNeeds _ hn, fun n hn => isOf_of_mem_buildNeeds _ hn⟩
  rw [guardedBuild_eq_mapError, buildWithin_eq, Limits.grant]
  cases (buildNeeds ts).findSome? l.excess? <;> rfl

/-- A head with a line far inside of it. -/
def deepLine : List Token :=
  [⟨1, 0, .head, "head:".toList, "head:".toList, 0⟩,
    ⟨2, 4, .expression, "title: x".toList, "title: x".toList,
      4611686018427387904⟩]

/-- The standard limits are too narrow for a line that is deep inside a head, and for a condition with
many alternates. -/
theorem guardedBuild_standard :
    guardedBuild .standard deepLine {} = .error (.excess .blanks) ∧
      guardedBuild .standard (longChain 988) {} = .error (.excess .calls) := by
  constructor
  · have hneeds : buildNeeds deepLine = [.blanks 18446744073709551612] := rfl
    rw [guardedBuild_eq_mapError, buildWithin_eq, hneeds, Limits.grant_blanks]
    rfl
  · rw [guardedBuild_eq_mapError, buildWithin_longChain]
    rfl

end ComponentLang
