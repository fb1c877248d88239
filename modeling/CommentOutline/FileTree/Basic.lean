import CommentOutline.FileTree.Path
import CommentOutline.Text.Encoding
import CommentOutline.Text.Lines

set_option autoImplicit false

/-! File trees. Every place in a tree is empty, a directory or a file with its bytes; the top is
always a directory. -/

namespace CommentOutline.FileTree

inductive Entry where
  | directory
  | file (content : List UInt8)
deriving Repr, DecidableEq

structure Tree where
  entries : List (Place × Entry)
deriving Repr, DecidableEq

inductive FileError where
  | missing (path : Path)
  | isDirectory (path : Path)
  | notDirectory (path : Path)
deriving Repr, DecidableEq

namespace Tree

def empty : Tree := ⟨[]⟩

def entry? (tree : Tree) (place : Place) : Option Entry :=
  if place = [] then some .directory else tree.entries.lookup place

def isFileAt (tree : Tree) (place : Place) : Bool :=
  match tree.entry? place with
  | some (.file _) => true
  | _ => false

def isDirectoryAt (tree : Tree) (place : Place) : Bool := tree.entry? place = some .directory

def erase (tree : Tree) (place : Place) : Tree :=
  ⟨tree.entries.filter fun entry => entry.1 ≠ place⟩

def put (tree : Tree) (place : Place) (entry : Entry) : Tree :=
  ⟨(place, entry) :: (tree.erase place).entries⟩

def makeDirectories (tree : Tree) : (above : Place) → (names : List String) → Tree
  | _, [] => tree
  | above, name :: names =>
      let place := above ++ [name]
      let grown := if (tree.entry? place).isSome then tree else tree.put place .directory
      grown.makeDirectories place names

def putFile (tree : Tree) (place : Place) (content : List UInt8) : Tree :=
  (tree.makeDirectories [] place.dropLast).put place (.file content)

def walk (tree : Tree) (path : Path) : Place → List String → Except FileError Place
  | place, [] => .ok place
  | place, part :: parts =>
      match tree.entry? place with
      | some .directory => tree.walk path (climb place part) parts
      | some (.file _) => .error (.notDirectory path)
      | none => .error (.missing path)

def locate (tree : Tree) (base : Place) (path : Path) : Except FileError Place :=
  tree.walk path (if path.isAbsolute then [] else base) path.parts

def isFile (tree : Tree) (base : Place) (path : Path) : Bool :=
  match tree.locate base path with
  | .ok place => tree.isFileAt place
  | .error _ => false

def read (tree : Tree) (base : Place) (path : Path) : Except FileError (List UInt8) :=
  match tree.locate base path with
  | .error error => .error error
  | .ok place =>
      match tree.entry? place with
      | some (.file content) => .ok content
      | some .directory => .error (.isDirectory path)
      | none => .error (.missing path)

/-- The place of a file that can be opened for writing; the file may be new, its directory may
not. -/
def writable (tree : Tree) (base : Place) (path : Path) : Except FileError Place :=
  match tree.locate base path with
  | .error error => .error error
  | .ok place =>
      match tree.entry? place with
      | some .directory => .error (.isDirectory path)
      | _ => .ok place

/-- The tree with new content in a file. -/
def write (tree : Tree) (base : Place) (path : Path) (content : List UInt8) :
    Except FileError Tree :=
  match tree.writable base path with
  | .error error => .error error
  | .ok place => .ok (tree.put place (.file content))

def changedSince (tree before : Tree) : List (Place × List UInt8) :=
  tree.entries.filterMap fun entry =>
    match entry.2 with
    | .file content =>
        if before.entry? entry.1 = some (.file content) then none else some (entry.1, content)
    | .directory => none

end Tree

inductive ReadError where
  | file (error : FileError)
  | encoding (error : Text.EncodingError)
deriving Repr, DecidableEq

/-- The text of a file, with every line break as a line feed. -/
def Tree.readHeld (tree : Tree) (codecs : Text.Codecs) (others : List Char) (base : Place)
    (path : Path) (encoding : String) : Except ReadError Text.Held :=
  match tree.read base path with
  | .error error => .error (.file error)
  | .ok bytes =>
      match Text.decodeNamed codecs others encoding bytes with
      | .error error => .error (.encoding error)
      | .ok held => .ok { held with text := Text.unifyBreaks held.text }

def Tree.readText (tree : Tree) (codecs : Text.Codecs) (base : Place) (path : Path)
    (encoding : String) : Except ReadError String :=
  (tree.readHeld codecs [] base path encoding).map fun held => String.ofList held.text

def FileError.message : FileError → String
  | .missing path => "[Errno 2] No such file or directory: " ++ Text.quoted path.toString
  | .isDirectory path => "[Errno 21] Is a directory: " ++ Text.quoted path.toString
  | .notDirectory path => "[Errno 20] Not a directory: " ++ Text.quoted path.toString

def ReadError.message : ReadError → String
  | .file error => error.message
  | .encoding error => error.message

end CommentOutline.FileTree
