import CommentOutline.CommandLine.Run

set_option autoImplicit false

/-! The places in a file tree that a run may look at, by the arguments alone. -/

namespace CommentOutline.CommandLine

open FileTree (Path Place)

/-- The texts in an argument that may name a file: all of it, what stands behind an equals sign,
and what stands behind a letter. -/
def namesIn (argument : String) : List String :=
  [argument, String.ofList (argument.toList.drop 2)] ++ (cutAtEquals argument).2.toList

def placesOnWay (place : Place) : List String → List Place
  | [] => [place]
  | part :: parts => place :: placesOnWay (FileTree.climb place part) parts

def upward (place : Place) : List Place :=
  (List.range (place.length + 1)).map fun count => place.take count

def placesOf (directory : Place) (path : Path) : List Place :=
  (placesOnWay (if path.isAbsolute then [] else directory) path.parts).flatMap upward

/-- All places that a run may look at, and the configuration files in them. -/
def places (directory : Place) (arguments : List String) : List Place :=
  let found := (upward directory ++ (arguments.flatMap namesIn).flatMap fun name =>
    placesOf directory (.ofString name)).eraseDups
  found ++ found.map fun place => place ++ [Config.fileName]

end CommentOutline.CommandLine
