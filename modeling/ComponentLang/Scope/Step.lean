import ComponentLang.Scope.Body
import ComponentLang.Scope.Tree

/-!
# From tokens to a manifest

Each token first closes the blocks that it is not inside of, and then goes where the innermost
block that remains and its own category send it.

* `Scope.dispatch` : the second of these; a line that finds no place changes nothing;
* `Scope.step` : both, with the notice on a dropped line;
* `Scope.run`, `runNotices` : all tokens in turn;
* `Scope.finish` : closes what is open and adds the companion texts;
* `buildManifest`, `buildNotices` : the whole way.
-/

namespace ComponentLang

namespace Scope

/-- Sends a line that neither declares nor opens anything by its category to the innermost
block. -/
def place (s : Scope) (t : Token) : Except DropReason Scope :=
  match s.top? with
  | some .style | some (.rule _ _) => s.styleLine t
  | some (.choice _ _ _) => s.branchLine t
  | some (.suite _) => .error (.misplaced t.category)
  | _ => s.nodeLine t

/-- Sends a line outside logic and heads where its category belongs. -/
def route (s : Scope) (t : Token) : Except DropReason Scope :=
  match t.category with
  | .component | .memory | .use | .prop | .state | .derived => s.declare t
  | .function => s.openFunction t
  | .mount => .ok (s.openMount t)
  | .watch => s.openWatcher t
  | .style => .ok (s.push t .style)
  | .head => .ok (s.push t (.head []))
  | .suite => .ok (s.push t (.suite (suiteName? t.text)))
  | .persona => s.openPersona t
  | .view => .ok (s.push t .forest)
  | .control | .element | .assertion | .expression => s.place t

/-- Takes a line into the innermost block. Logic and heads take every line. -/
def dispatch (s : Scope) (t : Token) : Except DropReason Scope :=
  match s.top? with
  | some .mount | some (.logic _ _) => .ok (s.logicLine t)
  | some (.head _) => .ok (s.headLine t)
  | _ => s.route t

/-- Takes one token, and tells if it was dropped. -/
def step (s : Scope) (t : Token) : Scope × Option Notice :=
  match (s.closeTo t.depth).dispatch t with
  | .ok s' => (s', none)
  | .error reason => (s.closeTo t.depth, some (.dropped t.line t.text reason))

/-- Takes tokens in turn. -/
def run : Scope → List Token → Scope
  | s, [] => s
  | s, t :: ts => run (s.step t).1 ts

/-- The notices on dropped lines. -/
def runNotices : Scope → List Token → List Notice
  | _, [] => []
  | s, t :: ts => (s.step t).2.toList ++ runNotices (s.step t).1 ts

/-- Closes the open blocks and adds what the companion texts say. -/
def finish (s : Scope) (c : Companions) : Manifest := (s.closeTo (-1)).manifest.withCompanions c

end Scope

/-- The manifest of tokens with their depths. -/
def buildManifest (ts : List Token) (c : Companions) : Manifest := (Scope.start.run ts).finish c

/-- The notice on a finished manifest. -/
def Manifest.builtNotice (m : Manifest) : Notice :=
  .built m.name m.state.length m.functions.length m.view.length

/-- The notices on the way to a manifest. -/
def buildNotices (ts : List Token) (c : Companions) : List Notice :=
  Scope.start.runNotices ts ++ [(buildManifest ts c).builtNotice]

end ComponentLang
