set_option autoImplicit false

/-! Paths in a file tree. A path is read without empty parts and single dots; double dots stay,
since what they lead to depends on the tree. -/

namespace CommentOutline.FileTree

structure Path where
  /-- The slashes in front: none, one, or exactly two. -/
  slashes : Nat
  parts : List String
deriving Repr, DecidableEq

namespace Path

def cut : List Char → List (List Char)
  | [] => [[]]
  | c :: cs =>
      if c = '/' then [] :: cut cs
      else match cut cs with
        | [] => [[c]]
        | part :: parts => (c :: part) :: parts

def leadingSlashes (cs : List Char) : Nat :=
  match (cs.takeWhile fun c => c = '/').length with
  | 0 => 0
  | 2 => 2
  | _ => 1

def ofString (text : String) : Path :=
  let cs := text.toList
  ⟨leadingSlashes cs, ((cut cs).filter fun part => part ≠ [] && part ≠ ['.']).map String.ofList⟩

def isAbsolute (path : Path) : Bool := path.slashes != 0

def joinParts : List String → String
  | [] => ""
  | [part] => part
  | part :: next :: parts => part ++ "/" ++ joinParts (next :: parts)

/-- The normal form of a path; the empty relative path is a dot. -/
def toString (path : Path) : String :=
  if path.slashes = 0 && path.parts.isEmpty then "."
  else String.ofList (List.replicate path.slashes '/') ++ joinParts path.parts

def parent (path : Path) : Path := { path with parts := path.parts.dropLast }

def child (path : Path) (part : String) : Path := { path with parts := path.parts ++ [part] }

end Path

/-- A place in a tree: the names that lead there from the top. -/
abbrev Place := List String

/-- Takes one part of a path; double dots lead up, and from the top nowhere else. -/
def climb (place : Place) (part : String) : Place :=
  if part = ".." then place.dropLast else place ++ [part]

def resolve (base : Place) (path : Path) : Place :=
  path.parts.foldl climb (if path.isAbsolute then [] else base)

def Path.ofPlace (place : Place) : Path := ⟨1, place⟩

end CommentOutline.FileTree
