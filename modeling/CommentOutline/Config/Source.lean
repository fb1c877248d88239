import CommentOutline.Config.Merge
import CommentOutline.Notice

set_option autoImplicit false

/-! Where a configuration comes from: the defaults, the nearest configuration file above a place,
and the environment, each over the one before. Files are in TOML, which a reader from elsewhere
reads. -/

namespace CommentOutline.Config

open FileTree (Path Place Tree)

def fileName : String := ".comment-explorer.toml"

def defaults : Table :=
  [("annotations", .table [("comment_styles", .list [.text "//", .text "/*"]),
      ("marker", .text "#--"), ("separator", .text "::"), ("block_close", .text "*/")]),
    ("output", .table [("format", .text "text")])]

/-- The nearest configuration file in a directory or above it; the names lead upward. -/
def nearest? (tree : Tree) : (upward : List String) → Option Place
  | [] => if tree.isFileAt [fileName] then some [fileName] else none
  | name :: above =>
      let candidate := (name :: above).reverse ++ [fileName]
      if tree.isFileAt candidate then some candidate else nearest? tree above

/-- The configuration file for a path: the nearest one from its directory, or from the path itself
if it is a directory. -/
def find? (tree : Tree) (base : Place) (start : Path) : Option Path :=
  let place := FileTree.resolve base start
  let directory := if tree.isFileAt place then place.dropLast else place
  (nearest? tree directory.reverse).map Path.ofPlace

def withEnvironment (config : Table) (environment : List Variable) : Noted Table :=
  let overridden := overrideAll config environment
  ⟨overridden.2.map .override, .ok overridden.1⟩

/-- What reads a text in TOML; none where the text is not. -/
abbrev TomlReader := String → Option Table

def load (readToml : TomlReader) (tree : Tree) (base : Place) (environment : List Variable)
    (path : Path) : Noted Table :=
  match tree.readText .none base path "utf-8" with
  | .error error => .fail (.read error)
  | .ok text =>
      match readToml text with
      | none => .fail .toml
      | some layer =>
          Noted.andThen ⟨[.configLoaded path], .ok (merge defaults layer)⟩ fun config =>
            withEnvironment config environment

/-- The configuration of a given file, or else of the nearest file from a start, or else the
defaults. -/
def get (readToml : TomlReader) (tree : Tree) (base : Place) (environment : List Variable)
    (path : Option Path) (start : Path) : Noted Table :=
  match path.orElse fun _ => find? tree base start with
  | some file => load readToml tree base environment file
  | none => withEnvironment defaults environment

end CommentOutline.Config
