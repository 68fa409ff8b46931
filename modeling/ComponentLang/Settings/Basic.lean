import ComponentLang.Token.Lexicon

/-!
# Settings

* `Settings` : what a user may choose for a compilation;
* `Settings.tags`, `Settings.lexicon` : what follows for the reading of a source.
-/

namespace ComponentLang

/-- What a user may choose. -/
structure Settings where
  /-- Lines are to be indented by a multiple of this. -/
  unit : Int := defaultUnit
  /-- Any report makes a compilation fail. -/
  strict : Bool := false
  /-- Tags known beside the built-in ones. -/
  knownTags : List Text := []
  /-- Repeated declarations are reported. -/
  warnRepeats : Bool := true
deriving DecidableEq, Repr

namespace Settings

/-- All the tags that are known. -/
def tags (s : Settings) : List Text := builtinTags ++ s.knownTags

/-- How sources are read. -/
def lexicon (s : Settings) : Lexicon := { unit := unitInForce s.unit, tags := s.tags }

end Settings

end ComponentLang
