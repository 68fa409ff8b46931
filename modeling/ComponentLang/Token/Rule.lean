import ComponentLang.Persona
import ComponentLang.Text.Blank
import ComponentLang.Text.Upper
import ComponentLang.Token.Category

/-!
# How a line gets its category

* `Rule` : a category and the lines it claims;
* `Rule.standard` : the rules of the language, in order of precedence. State lines come before
  markup, because a type or a call in them would look like markup;
* `classify` : the category of the first rule that claims a line;
* `isMarkup` : the shape of a markup line.
-/

namespace ComponentLang

/-- The tags that make a line markup by their name alone. -/
def builtinTags : List Text := [
  "div".toList, "span".toList, "p".toList, "h1".toList, "h2".toList, "h3".toList, "h4".toList,
  "h5".toList, "h6".toList, "ul".toList, "ol".toList, "li".toList, "button".toList,
  "input".toList, "canvas".toList, "img".toList, "a".toList, "nav".toList, "footer".toList,
  "main".toList, "section".toList, "article".toList, "header".toList]

/-- A category and the test for the lines it claims, given the known tags. -/
structure Rule where
  category : Category
  claims : List Text → Text → Bool

namespace Rule

/-- Claims the lines that begin with `lead`. -/
def lead (category : Category) (lead : Text) : Rule :=
  ⟨category, fun _ t => Text.startsWith lead t⟩

/-- Claims the lines whose first word is `word`. -/
def word (category : Category) (word : Text) : Rule :=
  ⟨category, fun _ t => (Text.afterWord? word t).isSome⟩

/-- Claims the lines that begin with `word` and a blank. -/
def spaced (category : Category) (word : Text) : Rule :=
  ⟨category, fun _ t => (Text.afterSpaced? word t).isSome⟩

end Rule

/-- The characters that end the first word of a markup line. -/
def endsTag (c : Char) : Bool := c = ' ' || c = '.' || c = '(' || c = '#'

/-- The first word of a markup line. -/
def firstWord (t : Text) : Text := t.takeWhile (!endsTag ·)

/-- The text begins with a capital. -/
def isCapitalised : Text → Bool
  | [] => false
  | c :: _ => Text.isCapital c

/-- A line is markup if it has a colon, an opening bracket or a hash somewhere, or if its first
word is a known tag or begins with a capital. -/
def isMarkup (tags : List Text) (t : Text) : Bool :=
  t.any (fun c => c = ':' || c = '(' || c = '#') ||
    tags.contains (firstWord t) || isCapitalised (firstWord t)

/-- The line begins a construct of control flow. -/
def isControl (t : Text) : Bool :=
  ["each".toList, "if".toList, "match".toList, "case".toList].any
      (fun word => (Text.afterSpaced? word t).isSome) ||
    ["else".toList, "default".toList].any (fun word => (Text.afterWord? word t).isSome)

/-- The line begins with a quote. -/
def isQuotedLine : Text → Bool
  | [] => false
  | c :: _ => c = '\x22' || c = '\x27'

/-- What follows the word `on` and the blanks after it. -/
def afterOn? (t : Text) : Option Text := Text.afterSpaced? "on".toList t

/-- The rules of the language, in order of precedence. -/
def Rule.standard : List Rule := [
  .word .component "component".toList,
  .word .memory "memory".toList,
  .lead .view "view:".toList,
  .lead .style "style:".toList,
  .lead .head "head:".toList,
  .word .suite "test".toList,
  .spaced .assertion "must".toList,
  ⟨.persona, fun _ t => (Persona.ofTag? t).isSome⟩,
  .lead .state ['$'],
  .word .prop "@prop".toList,
  .spaced .derived "sync".toList,
  .spaced .use "use".toList,
  .spaced .function "fn".toList,
  ⟨.mount, fun _ t => ((afterOn? t).bind (Text.afterWord? "mount".toList)).isSome⟩,
  ⟨.watch, fun _ t => ((afterOn? t).bind (Text.afterSpaced? "change".toList)).isSome⟩,
  ⟨.control, fun _ t => isControl t⟩,
  ⟨.expression, fun _ t => isQuotedLine t⟩,
  ⟨.element, isMarkup⟩]

/-- The category of the first rule that claims the line; a line that no rule claims is an
expression. -/
def classify (rules : List Rule) (tags : List Text) (t : Text) : Category :=
  match rules.find? fun r => r.claims tags t with
  | some r => r.category
  | none => .expression

end ComponentLang
