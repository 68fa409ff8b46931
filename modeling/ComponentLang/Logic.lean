import ComponentLang.Persona
import ComponentLang.Text.Blank

/-!
# Logic

The bodies of functions, watchers, tests and the mount hook are kept line by line; only conditional
headers nest.

* `LogicItem` : a line, an assertion, or a block under a header;
* `blockKeyword`, `blockCondition?` : the two parts of a block's header;
* `LogicItem.assertionsIn` : the assertions of a body, those of its blocks included;
* `LogicItem.blocksIn` : the headers of all its blocks.
-/

namespace ComponentLang

/-- An item of a logic body. -/
inductive LogicItem where
  | line (text : Text) (line : Int)
  | assertion (expression : Text) (line : Int)
  | block (header : Text) (body : List LogicItem) (line : Int)

/-- The keyword of a block's header and what follows it. A text that starts otherwise is no such
header. -/
def splitHeader? (header : Text) : Option (Text × Text) :=
  let t := Text.trim header
  let elseIf := (Text.afterSpaced? "else".toList t).bind (Text.afterWord? "if".toList)
  (elseIf.map ("else if".toList, ·)).or
    (((Text.afterWord? "if".toList t).map ("if".toList, ·)).or
      ((Text.afterWord? "else".toList t).map ("else".toList, ·)))

/-- The keyword of a block's header. -/
def blockKeyword (header : Text) : Text := ((splitHeader? header).map Prod.fst).getD []

/-- The condition in a block's header, without the colon that ends it. -/
def blockCondition? (header : Text) : Option Text :=
  (splitHeader? header).bind fun (_, rest) =>
    Text.nonempty? (Text.trim (Text.dropFinal ':' (Text.trim rest)))

namespace LogicItem

/-- Fills in the body of a block. -/
def setBody (body : List LogicItem) : LogicItem → LogicItem
  | .block header _ l => .block header body l
  | item => item

mutual

/-- The assertions of an item, with their lines. -/
def assertions : LogicItem → List (Text × Int)
  | .line _ _ => []
  | .assertion expression l => [(expression, l)]
  | .block _ body _ => assertionsIn body

/-- The assertions of a body, with their lines. -/
def assertionsIn : List LogicItem → List (Text × Int)
  | [] => []
  | item :: rest => item.assertions ++ assertionsIn rest

end

mutual

/-- The headers of the blocks in an item. -/
def blocks : LogicItem → List Text
  | .line _ _ => []
  | .assertion _ _ => []
  | .block header body _ => header :: blocksIn body

/-- The headers of the blocks in a body, each before those inside it. -/
def blocksIn : List LogicItem → List Text
  | [] => []
  | item :: rest => item.blocks ++ blocksIn rest

end

end LogicItem

/-- A function and its body. -/
structure FunctionDecl where
  name : Text
  params : List Text
  body : List LogicItem
  line : Int

/-- What is done when an expression changes. -/
structure Watcher where
  dependency : Text
  body : List LogicItem
  line : Int

/-- A test body, under the name of its suite. -/
structure PersonaTest where
  persona : Persona
  suite : Option Text
  body : List LogicItem
  line : Int

end ComponentLang
