import ComponentLang.Text.Blank
import ComponentLang.Text.Word

/-!
# Declarations

Imports, props, state and derived values are declared on one line each.

* `Declaration`, `Derived`, `Import` : what is declared;
* `headerName?` : the name of a component or memory;
* `Import.parse?`, `Declaration.parseProp?`, `Declaration.parseState?`, `Derived.parse?` : reading
  a line; a line of another form declares nothing.
-/

namespace ComponentLang

/-- The name after the keyword of a component or memory. -/
def headerName? (keyword t : Text) : Option Text :=
  ((Text.afterSpaced? keyword t).bind Text.name?).map Prod.fst

/-- A prop or state. -/
structure Declaration where
  id : Text
  type : Text
  default : Option Text
  line : Int
deriving DecidableEq, Repr

/-- A value that follows from others. -/
structure Derived where
  id : Text
  expr : Text
  line : Int
deriving DecidableEq, Repr

/-- A name taken from elsewhere. -/
structure Import where
  name : Text
  path : Text
deriving DecidableEq, Repr

/-! ## Imports -/

namespace Import

/-- Leads the path of a module that comes with the language. -/
def standardLead : Text := "viand:".toList

/-- The import comes with the language. -/
def isStandard (i : Import) : Bool := Text.startsWith standardLead i.path

/-- A single or double quote. -/
def isPathQuote (c : Char) : Bool := c = '\x22' || c = '\x27'

/-- The path at the start of a text: a quote, characters on the same line, and a quote. -/
def path? : Text → Option Text
  | [] => none
  | q :: r =>
    let path := r.takeWhile fun c => !isPathQuote c && c ≠ '\n'
    if isPathQuote q && (r.drop path.length).head?.any isPathQuote then some path else none

/-- The path after blanks, the word `from` and more blanks. -/
def fromPath? (t : Text) : Option Text :=
  ((Text.afterBlanks? t).bind (Text.afterSpaced? "from".toList)).bind path?

/-- The shortest beginning on one line, of one character at least, that a path follows, and the
path. -/
def binding? : Text → Option (Text × Text)
  | [] => none
  | c :: r =>
    if c = '\n' then none
    else
      match fromPath? r with
      | some path => some ([c], path)
      | none => (binding? r).map fun (name, path) => (c :: name, path)

/-- The first answer for the text after all of some blanks, after all but the last, and so on; one
blank at least stays out. The blanks are given last first. -/
def afterSome? (f : Text → Option (Text × Text)) : Text → Text → Option (Text × Text)
  | [], _ => none
  | b :: blanks, t => (f t).or (afterSome? f blanks (b :: t))

/-- A bound name without the curly brackets around it. -/
def bareName (t : Text) : Text :=
  Text.trim (Text.dropFinal '\x7d' (Text.dropLead ['\x7b'] (Text.trim t)))

/-- The name and path on a line that gives a path. -/
def parseFrom? (t : Text) : Option Import :=
  ((Text.after? "use".toList t).bind fun r =>
    afterSome? binding? (r.takeWhile Text.isBlank).reverse (Text.trimStart r)).map
      fun (name, path) => ⟨bareName name, path⟩

/-- The module on a line that names one of the language. -/
def parseStandard? (t : Text) : Option Import :=
  ((Text.afterSpaced? "use".toList t).bind Text.name?).bind fun (name, rest) =>
    if Text.trimStart rest = [] then some ⟨name, standardLead ++ name⟩ else none

/-- The import on a line. -/
def parse? (t : Text) : Option Import := (parseFrom? t).or (parseStandard? t)

end Import

/-! ## Props and state -/

namespace Declaration

/-- A trimmed value on one line; an empty one is none at all. -/
def value? (t : Text) : Option (Option Text) :=
  if Text.onOneLine (Text.trim t) then some (Text.nonempty? (Text.trim t)) else none

/-- The type where none is given. -/
def anyType : Text := "any".toList

/-- A trimmed type. -/
def typeOf (t : Text) : Text := (Text.nonempty? (Text.trim t)).getD anyType

/-- The type and default value after a colon. Something must stand between the colon and the
equals sign. -/
def typed? (t : Text) : Option (Text × Option Text) :=
  match Text.splitFirst? '=' t with
  | none => if t = [] then none else some (typeOf t, none)
  | some (type, value) =>
    if type = [] then none else (value? value).map fun v => (typeOf type, v)

/-- The type and default value after a name. -/
def annotation? (t : Text) : Option (Text × Option Text) :=
  match Text.trimStart t with
  | [] => some (anyType, none)
  | ':' :: r => typed? r
  | '=' :: r => (value? r).map fun v => (anyType, v)
  | _ => none

/-- The declaration of a name, given what follows the name. -/
def make? (id rest : Text) (line : Int) : Option Declaration :=
  (annotation? rest).map fun (type, default) => ⟨id, type, default, line⟩

/-- The prop on a line. Its name may stand in double quotes. -/
def parseProp? (t : Text) (line : Int) : Option Declaration :=
  ((Text.afterSpaced? "@prop".toList t).bind fun r =>
    Text.name? (Text.dropLead ['\x22'] r)).bind fun (id, rest) =>
      make? id (Text.dropLead ['\x22'] rest) line

/-- The state on a line. -/
def parseState? (t : Text) (line : Int) : Option Declaration :=
  ((Text.after? ['$'] t).bind Text.name?).bind fun (id, rest) => make? id rest line

end Declaration

/-! ## Derived values -/

namespace Derived

/-- The expression after the equals sign: trimmed, and on one line. Of blanks alone, the last that
is no line feed. -/
def expr? (t : Text) : Option Text :=
  match Text.trim t with
  | [] => ((t.filter (· ≠ '\n')).getLast?).map ([·])
  | e => if Text.onOneLine e then some e else none

/-- The derived value on a line. -/
def parse? (t : Text) (line : Int) : Option Derived :=
  (((Text.afterSpaced? "sync".toList t).bind (Text.after? ['$'])).bind Text.name?).bind
    fun (id, rest) =>
      ((Text.after? ['='] (Text.trimStart rest)).bind expr?).map fun e => ⟨id, e, line⟩

end Derived

end ComponentLang
