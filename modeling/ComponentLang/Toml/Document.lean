import ComponentLang.Toml.Scalar

/-!
# TOML documents

* `key?` : a dotted key;
* `value` : any value. Lists and inline tables nest, but only so deep;
* `Document` : what was read so far: the entries, the tables and lists that are closed to further
  entries, the tables that have had their header, and the one that is open;
* `Document.parse` : the entries of a document, or the first fault in it.
-/

namespace ComponentLang.Toml

/-! ## Keys -/

/-- The characters of a key without quotes. -/
def isBareKeyChar (c : Char) : Bool :=
  ('a' ≤ c && c ≤ 'z') || ('A' ≤ c && c ≤ 'Z') || isPlainDigit c || c = '-' || c = '_'

/-- One part of a dotted key. -/
def keyPart? : Text → Read Text
  | [] => none
  | c :: r =>
    if isBareKeyChar c then some (c :: r.takeWhile isBareKeyChar, r.dropWhile isBareKeyChar)
    else if c = apostrophe then literalString? r
    else if c = quote then basicString? r
    else none

/-- A dotted key and the blanks after it. `fuel` bounds the number of its parts. -/
def keyParts? : (fuel : Nat) → Text → Read Path
  | 0, _ => none
  | fuel + 1, t =>
    (keyPart? t).bind fun (part, r) =>
      match skipBlanks r with
      | '.' :: rest =>
        (keyParts? fuel (skipBlanks rest)).map fun (parts, rest) => (part :: parts, rest)
      | rest => some ([part], rest)

/-- A dotted key and the blanks after it. -/
def key? (t : Text) : Read Path := keyParts? (t.length + 1) t

/-- A dotted key, an equals sign, and the blanks after it. -/
def assignment? (t : Text) : Read Path :=
  (key? t).bind fun (path, r) =>
    (Text.after? ['='] r).map fun rest => (path, skipBlanks rest)

/-! ## Values -/

/-- A path leads into one of the closed ones. -/
def isUnder (closed : List Path) (path : Path) : Bool := closed.any (·.isPrefixOf path)

/-- A string, by its opening quotes. -/
def string? (t : Text) : Option (Read Value) :=
  let asValue (answer : Read Text) : Read Value := answer.map fun (s, rest) => (.string s, rest)
  let long (mark : Char) := Text.after? [mark, mark, mark] t
  let short (mark : Char) := Text.after? [mark] t
  ((long quote).map fun r => asValue (longString? false r)).or
    (((short quote).map fun r => asValue (basicString? r)).or
      (((long apostrophe).map fun r => asValue (longString? true r)).or
        ((short apostrophe).map fun r => asValue (literalString? r))))

/-- A truth value. -/
def boolean? (t : Text) : Read Value :=
  ((Text.after? "true".toList t).map fun r => (.boolean true, r)).or
    ((Text.after? "false".toList t).map fun r => (.boolean false, r))

/-- An entry added to an inline table, in which some paths are closed. -/
def addInline? (entries : Fields) (closed : List Path) (path : Path) (value : Value) :
    Option (Fields × List Path) :=
  match path.getLast? with
  | none => none
  | some key =>
    if isUnder closed path then none
    else
      (descend? false path.dropLast (addPair? key value) entries).map fun entries =>
        (entries, if value.isContainer then path :: closed else closed)

/-- The room for values that are nested in one another. -/
def maxRoom : Nat := 988

/-- The room that a list takes from what is nested in it. -/
def listRoom : Nat := 2

/-- The room that an inline table takes from what is nested in it. -/
def tableRoom : Nat := 3

/-- What is left of the room when some is taken. -/
def takeRoom (room taken : Nat) : Except Fault Nat :=
  if taken ≤ room then .ok (room - taken) else .error .tooDeep

mutual

/-- Any value. `fuel` bounds the number of steps, and `room` how values are nested. -/
def valueWithin : (fuel room : Nat) → Text → Except Fault (Value × Text)
  | 0, _, _ => .error .malformed
  | fuel + 1, room, t =>
    match string? t with
    | some answer => demand answer
    | none =>
      match t with
      | '[' :: r => do
        let room ← takeRoom room listRoom
        let r ← demand (skipFiller? false r)
        let (items, rest) ← itemsWithin fuel room r
        return (.array items, rest)
      | '\x7b' :: r => do
        let room ← takeRoom room tableRoom
        match skipBlanks r with
        | '\x7d' :: rest => return (.table [], rest)
        | r =>
          let (entries, rest) ← entriesWithin fuel room [] [] r
          return (.table entries, rest)
      | t =>
        match boolean? t with
        | some answer => .ok answer
        | none => scalar t

/-- The items of a list, up to its closing bracket. -/
def itemsWithin : (fuel room : Nat) → Text → Except Fault (List Value × Text)
  | 0, _, _ => .error .malformed
  | fuel + 1, room, t =>
    match t with
    | ']' :: rest => .ok ([], rest)
    | t => do
      let (item, r) ← valueWithin fuel room t
      let r ← demand (skipFiller? false r)
      match r with
      | ']' :: rest => return ([item], rest)
      | ',' :: r =>
        let r ← demand (skipFiller? false r)
        let (items, rest) ← itemsWithin fuel room r
        return (item :: items, rest)
      | _ => .error .malformed

/-- The entries of an inline table, up to its closing bracket, added to those before. -/
def entriesWithin : (fuel room : Nat) → Fields → List Path → Text → Except Fault (Fields × Text)
  | 0, _, _, _, _ => .error .malformed
  | fuel + 1, room, entries, closed, t => do
    let (path, r) ← demand (assignment? t)
    let (value, r) ← valueWithin fuel room r
    let (entries, closed) ← demand (addInline? entries closed path value)
    match skipBlanks r with
    | '\x7d' :: rest => return (entries, rest)
    | ',' :: rest => entriesWithin fuel room entries closed (skipBlanks rest)
    | _ => .error .malformed

end

/-- Any value. Each character of the text begins one value and one list of items at most. -/
def value (t : Text) : Except Fault (Value × Text) := valueWithin (2 * (t.length + 1)) maxRoom t

/-! ## Statements -/

/-- What was read of a document. -/
structure Document where
  /-- The entries at the top. -/
  entries : Fields
  /-- Lists and tables written in one place, which take no more entries. -/
  closed : List Path
  /-- Tables that may not have a header any more. -/
  declared : List Path
  /-- Tables made by dotted keys since the last header, to be declared at the next. -/
  pending : List Path
  /-- The table that is open. -/
  header : Path

namespace Document

/-- Nothing read yet. -/
def start : Document := ⟨[], [], [], [], []⟩

/-- The beginnings of a dotted key that are shorter than it, but not empty. -/
def ownTables (path : Path) : List Path :=
  (List.range (path.length - 1)).map fun i => path.take (i + 1)

/-- Adds an entry to the table that is open. -/
def assign? (d : Document) (path : Path) (value : Value) : Option Document :=
  let tables := (ownTables path).map (d.header ++ ·)
  let full := d.header ++ path
  match full.getLast? with
  | none => none
  | some key =>
    if tables.any d.declared.contains || isUnder d.closed full.dropLast then none
    else
      (descend? true full.dropLast (addPair? key value) d.entries).map fun entries =>
        { d with
          entries := entries
          closed := if value.isContainer then full :: d.closed else d.closed
          pending := d.pending ++ tables }

/-- Declares the tables that dotted keys have made. -/
def settle (d : Document) : Document :=
  { d with declared := d.declared ++ d.pending, pending := [] }

/-- Opens a table. -/
def openTable? (d : Document) (path : Path) : Option Document :=
  if d.declared.contains path || isUnder d.closed path then none
  else
    (descend? true path some d.entries).map fun entries =>
      { d with entries := entries, declared := path :: d.declared, header := path }

/-- Opens one more table of a list. What was declared under the one before is free again. -/
def openListed? (d : Document) (path : Path) : Option Document :=
  match path.getLast? with
  | none => none
  | some key =>
    if isUnder d.closed path then none
    else
      (descend? true path.dropLast (addTable? key) d.entries).map fun entries =>
        { d with
          entries := entries
          closed := d.closed.filter (!path.isPrefixOf ·)
          declared := path :: d.declared.filter (!path.isPrefixOf ·)
          header := path }

/-- The header of a table, after its opening bracket. -/
def header? (d : Document) (t : Text) : Read Document :=
  match t with
  | '[' :: r =>
    (key? (skipBlanks r)).bind fun (path, r) =>
      (d.openListed? path).bind fun d =>
        (Text.after? [']', ']'] r).map fun rest => (d, rest)
  | r =>
    (key? (skipBlanks r)).bind fun (path, r) =>
      (d.openTable? path).bind fun d => (Text.after? [']'] r).map fun rest => (d, rest)

/-- One statement: an entry, a header, or nothing. -/
def statement (d : Document) (t : Text) : Except Fault (Document × Text) :=
  match t with
  | '[' :: r => demand (d.settle.header? r)
  | [] => .ok (d, t)
  | c :: _ =>
    if c = '#' || c = '\n' then .ok (d, t)
    else do
      let (path, r) ← demand (assignment? t)
      let (value, rest) ← value r
      let d ← demand (d.assign? path value)
      return (d, rest)

/-- The statements of a text, each on lines of its own. `fuel` bounds their number. -/
def statements : (fuel : Nat) → Document → Text → Except Fault Document
  | 0, _, _ => .error .malformed
  | fuel + 1, d, t => do
    let (d, r) ← d.statement (skipBlanks t)
    let r ← demand (skipComment? (skipBlanks r))
    match r with
    | [] => return d
    | '\n' :: rest => statements fuel d rest
    | _ => .error .malformed

/-- The entries of a document, or the first fault in it. -/
def parse (t : Text) : Except Fault Fields :=
  (statements (t.length + 1) start t).map Document.entries

end Document

end ComponentLang.Toml
