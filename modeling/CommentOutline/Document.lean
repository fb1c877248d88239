import CommentOutline.Comment.Scan
import CommentOutline.Failure

set_option autoImplicit false

/-! Documents: the lines of a text, perhaps read from a file. -/

namespace CommentOutline

open FileTree (Path Place Tree)

structure Document where
  lines : List String
  path : Option Path
  encoding : String
deriving Repr, DecidableEq

namespace Document

def ofLines (lines : List String) : Document := ⟨lines, none, "utf-8"⟩

def ofText (text : String) : Document := ofLines (Text.splitLines text)

def ofHeld (held : Text.Held) (path : Path) (encoding : String) : Document :=
  ⟨Text.splitLines (String.ofList held.text), some path, encoding⟩

def ofFile (codecs : Text.Codecs) (tree : Tree) (base : Place) (path : Path) (encoding : String) :
    Except Failure Document :=
  match tree.readHeld codecs [] base path encoding with
  | .ok held => .ok (ofHeld held path encoding)
  | .error error => .error (.read error)

def lineCount (document : Document) : Nat := document.lines.length

/-- A line by its number, counted from the end if it is negative. -/
def lineAt? (document : Document) (number : Int) : Option String := itemAt? document.lines number

def setText (document : Document) (text : String) : Document :=
  { document with lines := Text.splitLines text }

def reload (document : Document) (codecs : Text.Codecs) (tree : Tree) (base : Place) :
    Except Failure Document :=
  match document.path with
  | none => .error .noBackingFile
  | some path =>
      match tree.readText codecs base path document.encoding with
      | .ok text => .ok (document.setText text)
      | .error error => .error (.read error)

def description (document : Document) : String :=
  let path := match document.path with
    | some path => "PosixPath(" ++ Text.quoted path.toString ++ ")"
    | none => "None"
  "TextDocument(path=" ++ path ++ ", lines=" ++ document.lineCount.repr ++ ")"

def scan (style : Comment.Style) (document : Document) : List (String × Int) :=
  (List.range document.lineCount).filterMap fun (number : Nat) =>
    (document.lineAt? number).bind fun line =>
      (Comment.matchLine? style line).map fun payload => (payload, (number : Int))

end Document

end CommentOutline
