import ComponentLang.Declaration
import ComponentLang.Endpoint
import ComponentLang.Head
import ComponentLang.Logic
import ComponentLang.Phrases
import ComponentLang.Query
import ComponentLang.View.Node

/-!
# Manifests

The manifest of a component holds all that its source and its companion texts say.

* `Manifest` : the manifest, and `Manifest.empty` that of an empty source;
* `StyleRule` : a selector and the lines under it;
* `Companions`, `Manifest.withCompanions` : the companion texts and what they add;
* `Manifest.state?`, `prop?`, `function?` : look-up by name.
-/

namespace ComponentLang

/-- A selector and its declarations, line by line. -/
structure StyleRule where
  selector : Text
  declarations : List Text
  line : Int
deriving DecidableEq, Repr

/-- All that a component says. -/
structure Manifest where
  name : Text
  isSingleton : Bool
  imports : List Import
  props : List Declaration
  state : List Declaration
  derived : List Derived
  functions : List FunctionDecl
  lifecycle : List LogicItem
  watchers : List Watcher
  refs : List Text
  slots : List Text
  styleRules : List StyleRule
  view : List ViewNode
  tests : List PersonaTest
  queries : List Query
  endpoints : List Endpoint
  phrases : Phrases
  head : Head

/-- The texts that may come with a component. -/
structure Companions where
  queries : Text := []
  endpoints : Text := []
  phrases : Text := []
  head : Text := []

namespace Manifest

/-- The manifest of an empty source. -/
def empty : Manifest :=
  { name := "Component".toList, isSingleton := false, imports := [], props := [], state := []
    derived := [], functions := [], lifecycle := [], watchers := [], refs := [], slots := []
    styleRules := [], view := [], tests := [], queries := [], endpoints := []
    phrases := .empty, head := .empty }

/-- Adds what the companion texts say. -/
def withCompanions (m : Manifest) (c : Companions) : Manifest :=
  { m with
    queries := Query.parse c.queries
    endpoints := Endpoint.parse c.endpoints
    phrases := Phrases.parse c.phrases
    head := m.head.merge (Head.parse c.head) }

/-- Of the states of a name, the last. -/
def state? (m : Manifest) (id : Text) : Option Declaration :=
  m.state.reverse.find? (·.id = id)

/-- Of the props of a name, the last. -/
def prop? (m : Manifest) (id : Text) : Option Declaration :=
  m.props.reverse.find? (·.id = id)

/-- Of the functions of a name, the first. -/
def function? (m : Manifest) (name : Text) : Option FunctionDecl :=
  m.functions.find? (·.name = name)

/-- Adds a name to a list that holds each once. -/
def register (name : Text) (names : List Text) : List Text :=
  if names.contains name then names else names ++ [name]

end Manifest

end ComponentLang
