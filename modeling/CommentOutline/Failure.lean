import CommentOutline.Comment.Settings
import CommentOutline.FileTree.Basic

set_option autoImplicit false

/-! Everything that can go wrong, and the words for it. -/

namespace CommentOutline

inductive Failure where
  | settings (error : Comment.SettingsError)
  | build (error : Outline.BuildError)
  | read (error : FileTree.ReadError)
  | write (error : FileTree.FileError)
  | encode (run : Text.HalfRun)
  /-- The standard output cannot show a text. -/
  | print (message : String)
  | toml
  | noTable (value : Config.Value)
  | noJson (moment : Config.Moment)
  | tooLong
  | configUnnamed
  | configUnlocated
  | encodingUnnamed
  | noBackingFile
  | outOfRange
  | argumentCount
  | noHtmlSupport
  /-- Listeners set each other off without an end. -/
  | endlessReactions
deriving Repr, DecidableEq

namespace Outline

def BuildError.message : BuildError → String
  | .emptySeparator => "empty separator"
  | .separatorNotText value =>
      "'in <string>' requires string as left operand, not " ++ value.typeWord
  | .noSegments => "list index out of range"
  | .missingContainer key => Text.quoted key

end Outline

namespace Failure

def momentWord : Config.Moment → String
  | .date _ => "date"
  | .time _ => "time"
  | .dateTime .. => "datetime"

def message : Failure → String
  | .settings error => error.message
  | .build error => error.message
  | .read error => error.message
  | .write error => error.message
  | .encode run => run.message
  | .print message => message
  | .toml => "<TomlError>"
  | .noTable value => "'" ++ value.typeWord ++ "' object has no attribute 'get'"
  | .noJson moment => "Object of type " ++ momentWord moment ++ " is not JSON serializable"
  | .tooLong =>
      "Exceeds the limit (4300 digits) for integer string conversion; " ++
        "use sys.set_int_max_str_digits() to increase the limit"
  | .configUnnamed => "expected str, bytes or os.PathLike object, not list"
  | .configUnlocated => "'list' object has no attribute 'is_file'"
  | .encodingUnnamed => "open() argument 'encoding' must be str or None, not list"
  | .noBackingFile => "Document has no backing file"
  | .outOfRange => "list index out of range"
  | .argumentCount => "wrong number of arguments"
  | .noHtmlSupport =>
      "OutlineHTMLGenerator requires the html extra. " ++
        "Install with: pip install comment-explorer[html]"
  | .endlessReactions => "maximum recursion depth exceeded"

end Failure

end CommentOutline
