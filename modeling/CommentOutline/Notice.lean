import CommentOutline.Config.Environment
import CommentOutline.Failure

set_option autoImplicit false

/-! Notices about the course of a run, and runs that leave notices. -/

namespace CommentOutline

inductive Notice where
  | configLoaded (path : FileTree.Path)
  | override (note : Config.OverrideNote)
  | scanned (lines annotations : Nat)
  | built (tally : Outline.Tally)
deriving Repr, DecidableEq

namespace Notice

def source : Notice → String
  | .configLoaded _ | .override _ => "comment_explorer.config.loader"
  | .scanned .. => "comment_explorer.outline.scanner"
  | .built _ => "comment_explorer.outline.builder"

def text : Notice → String
  | .configLoaded path => "Loaded config from " ++ path.toString
  | .override (.keptAsText value) =>
      "Env value " ++ Text.quoted value ++ " is not valid JSON, keeping as string"
  | .override (.applied name word key) =>
      "Config override from " ++ name ++ ": " ++ word ++ "." ++ key
  | .scanned lines annotations =>
      "Scanned " ++ lines.repr ++ " lines, " ++ annotations.repr ++ " annotations"
  | .built tally =>
      "Built forest: " ++ tally.annotations.repr ++ " annotations, " ++ tally.roots.repr ++
        " roots, " ++ tally.containers.repr ++ " containers"

def line (notice : Notice) : String := "DEBUG " ++ notice.source ++ ": " ++ notice.text ++ "\n"

end Notice

/-- A result, or a failure, with the notices given on the way. -/
structure Noted (α : Type) where
  notices : List Notice
  result : Except Failure α

namespace Noted

variable {α β : Type}

def done (value : α) : Noted α := ⟨[], .ok value⟩

def fail (failure : Failure) : Noted α := ⟨[], .error failure⟩

def ofExcept (result : Except Failure α) : Noted α := ⟨[], result⟩

def andThen (first : Noted α) (next : α → Noted β) : Noted β :=
  match first.result with
  | .ok value =>
      let second := next value
      ⟨first.notices ++ second.notices, second.result⟩
  | .error failure => ⟨first.notices, .error failure⟩

end Noted

end CommentOutline
