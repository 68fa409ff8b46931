import ComponentLang.Settings.Read

/-!
# Finding the settings file

The settings for a source are in the nearest directory around it that has a settings file.

* `FileTree` : the directories and files below a root;
* `FileTree.normalize?` : a path in names, from the root on; one that leads out of it is none;
* `FileTree.settingsFor?` : the settings file for a path.
-/

namespace ComponentLang

/-- A place below a root, by the names that lead to it. -/
abbrev TreePath := List Text

/-- The directories and files below a root. -/
structure FileTree where
  directories : List TreePath
  files : List TreePath

namespace FileTree

/-- Follows names from a place on. A single point stays, two points go up; above the root there is
nothing. -/
def follow? : TreePath → List Text → Option TreePath
  | place, [] => some place
  | place, name :: rest =>
    if name = [] || name = ['.'] then follow? place rest
    else if name = ['.', '.'] then
      if place = [] then none else follow? place.dropLast rest
    else follow? (place ++ [name]) rest

/-- The place that a relative path leads to. -/
def normalize? (path : Text) : Option TreePath :=
  if Text.startsWith ['/'] path then none else follow? [] (Text.pieces '/' path)

/-- The tree of such directories and files. -/
def ofPaths (directories files : List Text) : FileTree :=
  ⟨directories.filterMap normalize?, files.filterMap normalize?⟩

/-- The place is a directory: the root, one of those given, or one around something given. -/
def isDirectory (tree : FileTree) (place : TreePath) : Bool :=
  place = [] || tree.directories.any (place.isPrefixOf ·) ||
    tree.files.any fun file => place.isPrefixOf file && place ≠ file

/-- The place and the directories around it, nearest first. -/
def ancestors (place : TreePath) : List TreePath :=
  (List.range (place.length + 1)).map fun n => place.take (place.length - n)

/-- The settings file for the source or directory at a place. -/
def settingsFrom? (tree : FileTree) (place : TreePath) : Option TreePath :=
  let directory := if tree.isDirectory place then place else place.dropLast
  ((ancestors directory).map (· ++ [settingsFileName])).find? tree.files.contains

/-- The settings file for a path, again as a path. -/
def settingsFor? (tree : FileTree) (path : Text) : Option Text :=
  ((normalize? path).bind tree.settingsFrom?).map fun place => List.intercalate ['/'] place

end FileTree

end ComponentLang
