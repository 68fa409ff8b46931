import ComponentLang.Scope.Step

/-!
# Building within limits

A branch finds the end of its chain by one call for each branch before it, all of them open at once,
and the blanks before a line of a head are one text. A machine sets bounds to both.

* `Limits` : how many calls may be open, and how long the text of blanks may be;
* `Excess` : which of the two a build ran into;
* `Chain.linkWithin` : links a chain to the end of another, call by call;
* `Scope.closeTopWithin`, `closeToWithin` : blocks that close, each of which may run into a limit;
* `Scope.dispatchWithin`, `stepWithin`, `runWithin` : the same of lines and tokens;
* `buildWithin` : the manifest of tokens, unless a limit is in the way.
-/

namespace ComponentLang

/-- What a machine allows a build. -/
structure Limits where
  /-- The calls that may be open at once on the way to the end of a chain. -/
  calls : Nat
  /-- The blanks that may stand in one text. -/
  blanks : Nat
deriving DecidableEq, Repr

/-- What a build may run into. -/
inductive Excess where
  | calls
  | blanks
deriving DecidableEq, Repr

/-- The limits of a machine that keeps a thousand calls open, less those that lead to a block that
closes, and that tells the length of a text by 63 bits. -/
def Limits.standard : Limits := ⟨987, 9223372036854775807⟩

/-- Links a second chain to the end of a first, if the calls that are left lead there. -/
def Chain.linkWithin {ν : Type} : Nat → Chain ν → Chain ν → Except Excess (Chain ν)
  | 0, _, _ => .error .calls
  | _ + 1, .last b, alternate => .ok (.link b alternate)
  | calls + 1, .link b rest, alternate => (rest.linkWithin calls alternate).map (.link b)

namespace Scope

/-! ## Closing blocks -/

/-- Links one more branch to the end of the conditional node at the place `slot`. -/
def linkWithin (l : Limits) (slot : Nat) (branch : Branch ViewNode) (s : Scope) :
    Except Excess Scope :=
  match s.children[slot]? with
  | some (.cond chain) =>
    (chain.linkWithin l.calls (.last branch)).map fun chain =>
      s.mapChildren (·.set slot (.cond chain))
  | _ => .ok s

/-- Closes the innermost block. -/
def closeTopWithin (l : Limits) (s : Scope) : Except Excess Scope :=
  match s.frames with
  | ⟨_, line, .view (.alternate slot condition) nodes⟩ :: rest =>
    linkWithin l slot ⟨condition, nodes, line⟩ { s with frames := rest }
  | _ => .ok s.closeTop

/-- Closes the innermost blocks, so many of them. -/
def closeManyWithin (l : Limits) : Nat → Scope → Except Excess Scope
  | 0, s => .ok s
  | n + 1, s => (s.closeTopWithin l).bind (closeManyWithin l n)

/-- Closes the innermost blocks as long as they are as deep as `depth`, or deeper. -/
def closeToWithin (l : Limits) (depth : Int) (s : Scope) : Except Excess Scope :=
  closeManyWithin l (s.frames.takeWhile (depth ≤ ·.depth)).length s

/-! ## Lines -/

/-- Takes a line into the innermost block. -/
def dispatchWithin (l : Limits) (s : Scope) (t : Token) :
    Except Excess (Except DropReason Scope) :=
  match s.frames with
  | ⟨depth, _, .head _⟩ :: _ =>
    if headBlanks depth t ≤ l.blanks then .ok (s.dispatch t) else .error .blanks
  | _ => .ok (s.dispatch t)

/-- Takes one token. -/
def stepWithin (l : Limits) (s : Scope) (t : Token) : Except Excess Scope :=
  (s.closeToWithin l t.depth).bind fun closed =>
    (closed.dispatchWithin l t).map fun
      | .ok s' => s'
      | .error _ => closed

/-- Takes tokens in turn. -/
def runWithin (l : Limits) : Scope → List Token → Except Excess Scope
  | s, [] => .ok s
  | s, t :: ts => (s.stepWithin l t).bind (runWithin l · ts)

end Scope

/-- The manifest of tokens with their depths, unless a limit is in the way. -/
def buildWithin (l : Limits) (ts : List Token) (c : Companions) : Except Excess Manifest :=
  ((Scope.start.runWithin l ts).bind (Scope.closeToWithin l (-1))).map fun s =>
    s.manifest.withCompanions c

end ComponentLang
