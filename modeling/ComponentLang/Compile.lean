import ComponentLang.Depth
import ComponentLang.Failure
import ComponentLang.Repeats
import ComponentLang.Scope.Within
import ComponentLang.Settings.Basic

/-!
# Compilation

* `Compilation` : a manifest and the reports on its source;
* `analyse` : a source compiled, whatever the reports;
* `compile` : the same, but under strict settings any report is a failure;
* `compileWithin` : a compilation that limits may be in the way of;
* `compileNotices` : what is told on the way.
-/

namespace ComponentLang

/-- The outcome of a compilation. -/
structure Compilation where
  manifest : Manifest
  reports : List Report
  file : Text

/-- There was nothing to report. -/
def Compilation.ok (c : Compilation) : Bool := c.reports.isEmpty

/-- The name of a source that is in no file. -/
def memoryFile : Text := "<memory>".toList

/-- The tokens of a source with their depths. -/
def readTokens (lex : Lexicon) (source : Text) : List Token := Depth.assign (lex.tokens source)

/-- The manifest of a source, the reports on its indentation, and then those on its
declarations. -/
def analyse (settings : Settings) (c : Companions) (file source : Text) : Compilation :=
  let lex := settings.lexicon
  let manifest := buildManifest (readTokens lex source) c
  { manifest := manifest
    reports := lex.reports (lex.tokens source) ++ manifest.reports settings.warnRepeats
    file := file }

/-- Compiles a source. -/
def compile (settings : Settings) (c : Companions) (file source : Text) :
    Except Failure Compilation :=
  let result := analyse settings c file source
  if settings.strict && !result.ok then
    .error (.ofReports (result.reports.map Report.render) file (some source))
  else .ok result

/-- Compiles a source, unless a limit is in the way of its manifest. -/
def compileWithin (l : Limits) (settings : Settings) (c : Companions) (file source : Text) :
    Except Excess (Except Failure Compilation) :=
  (buildWithin l (readTokens settings.lexicon source) c).map fun _ => compile settings c file source

/-- What is told on the way: loose dedents, dropped lines, the finished manifest, the compilation
as a whole, and each report. -/
def compileNotices (settings : Settings) (c : Companions) (file source : Text) : List Notice :=
  let lex := settings.lexicon
  let result := analyse settings c file source
  Depth.notices (lex.tokens source) ++ buildNotices (readTokens lex source) c ++
    .compiled file result.manifest.name (lex.tokens source).length result.reports.length ::
      result.reports.map fun r => .reported file r.render

end ComponentLang
