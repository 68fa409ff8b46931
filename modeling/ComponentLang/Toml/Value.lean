import ComponentLang.Table

/-!
# TOML values

* `Moment` : the three kinds of dates and times;
* `Value` : a value of a TOML document. Floats and dates are kept as they are written;
* `Value.typeName` : the name of a value's type in messages;
* `Path`, `descend?` : a dotted key, and a change to the table that it leads to.
-/

namespace ComponentLang.Toml

/-- The kinds of dates and times. -/
inductive Moment where
  | date
  | time
  | datetime
deriving DecidableEq, Repr

/-- A value of a document. -/
inductive Value where
  | string (t : Text)
  | integer (i : Int)
  | float (written : Text)
  | boolean (b : Bool)
  | moment (kind : Moment) (written : Text)
  | array (items : List Value)
  | table (entries : List (Text × Value))

namespace Value

/-- The name of a value's type. -/
def typeName : Value → Text
  | .string _ => "str".toList
  | .integer _ => "int".toList
  | .float _ => "float".toList
  | .boolean _ => "bool".toList
  | .moment .date _ => "date".toList
  | .moment .time _ => "time".toList
  | .moment .datetime _ => "datetime".toList
  | .array _ => "list".toList
  | .table _ => "dict".toList

/-- The value holds other values, written in one place. -/
def isContainer : Value → Bool
  | .array _ => true
  | .table _ => true
  | _ => false

/-- The text of a string. -/
def string? : Value → Option Text
  | .string t => some t
  | _ => none

end Value

/-- A dotted key. -/
abbrev Path := List Text

/-- A table, by its entries. -/
abbrev Fields := List (Text × Value)

/-- Changes a value by a change to the table that it is, or to the last table of the list that it
is, if lists may be entered. -/
def enter? (enterLists : Bool) (f : Fields → Option Fields) : Value → Option Value
  | .table entries => (f entries).map .table
  | .array items =>
    match enterLists, items.getLast? with
    | true, some (.table entries) =>
      (f entries).map fun entries => .array (items.dropLast ++ [.table entries])
    | _, _ => none
  | _ => none

/-- Changes the table that a path leads to. Tables on the way that are missing are made, and of a
list of tables the last is entered, if lists may be entered at all. -/
def descend? (enterLists : Bool) : Path → (Fields → Option Fields) → Fields → Option Fields
  | [], f, entries => f entries
  | key :: path, f, entries =>
    let value := (Entries.get? key entries).getD (.table [])
    (enter? enterLists (descend? enterLists path f) value).map fun value =>
      Entries.put key value entries

/-- Adds an entry under a key that is not taken. -/
def addPair? (key : Text) (value : Value) (entries : Fields) : Option Fields :=
  match Entries.get? key entries with
  | some _ => none
  | none => some (entries ++ [(key, value)])

/-- Adds an empty table to the list of tables under a key. -/
def addTable? (key : Text) (entries : Fields) : Option Fields :=
  match Entries.get? key entries with
  | none => some (entries ++ [(key, .array [.table []])])
  | some (.array items) =>
    some (Entries.put key (.array (items ++ [.table []])) entries)
  | some _ => none

end ComponentLang.Toml
