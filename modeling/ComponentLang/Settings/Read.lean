import ComponentLang.Failure
import ComponentLang.Settings.Basic
import ComponentLang.Text.Order
import ComponentLang.Toml.Document

/-!
# Settings from a file

The settings stand in the table `compiler` of a TOML file. What is not set there has its default.

* `SettingsFile` : what is found under the name of the file;
* `SettingsError` : why it gives no settings;
* `Settings.ofFile` : the settings in a file;
* `Settings.extraTags`, `Settings.tagCount` : the tags that are known with them.
-/

namespace ComponentLang

/-- The name of the settings file. -/
def settingsFileName : Text := "viand.toml".toList

/-- What is found under the name of the settings file. -/
inductive SettingsFile where
  | absent
  | directory
  | content (t : Text)

/-- Why there are no settings. -/
inductive SettingsError where
  | absent
  | directory
  | unread (fault : Toml.Fault)
  | notATable
  | wrongType (key expected found : Text)
  | notPositive (unit : Int)
  | notTexts
deriving DecidableEq, Repr

namespace SettingsError

/-- The error in words. -/
def message : SettingsError → Text
  | .absent =>
    "Cannot read config: [Errno 2] No such file or directory: '".toList ++ settingsFileName ++
      "'".toList
  | .directory =>
    "Cannot read config: [Errno 21] Is a directory: '".toList ++ settingsFileName ++ "'".toList
  | .unread fault => fault.message
  | .notATable => "'compiler' must be a table".toList
  | .wrongType key expected found =>
    "'compiler.".toList ++ key ++ "' must be of type ".toList ++ expected ++ ", got ".toList ++
      found
  | .notPositive unit => "'compiler.indent_unit' must be positive, got ".toList ++ Text.ofInt unit
  | .notTexts => "'compiler.known_tags' must be a list of strings".toList

/-- The error as a failure in the settings file. -/
def failure (e : SettingsError) : Failure :=
  ⟨e.message, some ⟨settingsFileName, 0, 0, none⟩, []⟩

end SettingsError

namespace Settings

/-- Each line ending as one line feed. -/
def plainEndings : Text → Text
  | [] => []
  | '\r' :: '\n' :: r => '\n' :: plainEndings r
  | '\r' :: r => '\n' :: plainEndings r
  | c :: r => c :: plainEndings r

/-- The value of a key, which must be an integer. -/
def integer (table : Toml.Fields) (key : Text) (default : Int) : Except SettingsError Int :=
  match Entries.get? key table with
  | none => .ok default
  | some (.integer i) => .ok i
  | some v => .error (.wrongType key "int".toList v.typeName)

/-- The value of a key, which must be a truth value. -/
def boolean (table : Toml.Fields) (key : Text) (default : Bool) : Except SettingsError Bool :=
  match Entries.get? key table with
  | none => .ok default
  | some (.boolean b) => .ok b
  | some v => .error (.wrongType key "bool".toList v.typeName)

/-- The value of a key, which must be a list. -/
def list (table : Toml.Fields) (key : Text) : Except SettingsError (List Toml.Value) :=
  match Entries.get? key table with
  | none => .ok []
  | some (.array items) => .ok items
  | some v => .error (.wrongType key "list".toList v.typeName)

/-- The settings in a table. The types are looked at first, in a fixed order, and then the unit and
the tags. -/
def ofTable (table : Toml.Fields) : Except SettingsError Settings := do
  let unit ← integer table "indent_unit".toList defaultUnit
  let strict ← boolean table "strict".toList false
  let tags ← list table "known_tags".toList
  let warnRepeats ← boolean table "warn_duplicates".toList true
  if unit ≤ 0 then .error (.notPositive unit)
  else
    match tags.mapM Toml.Value.string? with
    | none => .error .notTexts
    | some knownTags => .ok ⟨unit, strict, knownTags, warnRepeats⟩

/-- The settings in the text of a file. -/
def ofText (t : Text) : Except SettingsError Settings :=
  match Toml.Document.parse (plainEndings t) with
  | .error fault => .error (.unread fault)
  | .ok entries =>
    match Entries.get? "compiler".toList entries with
    | none => ofTable []
    | some (.table table) => ofTable table
    | some _ => .error .notATable

/-- The settings in a file. -/
def ofFile : SettingsFile → Except SettingsError Settings
  | .absent => .error .absent
  | .directory => .error .directory
  | .content t => ofText t

/-- The known tags beyond the built-in ones, in ascending order, each once. -/
def extraTags (s : Settings) : List Text :=
  Text.sortedOnce (s.knownTags.filter (!builtinTags.contains ·))

/-- The number of known tags. -/
def tagCount (s : Settings) : Nat := s.tags.eraseDups.length

end Settings

end ComponentLang
