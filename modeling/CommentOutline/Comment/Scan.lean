import CommentOutline.Comment.Pattern

set_option autoImplicit false

/-! Scanning lines for annotations. -/

namespace CommentOutline.Comment

def scanFrom (style : Style) (number : Int) : List String → List (String × Int)
  | [] => []
  | line :: lines =>
      match matchLine? style line with
      | some payload => (payload, number) :: scanFrom style (number + 1) lines
      | none => scanFrom style (number + 1) lines

def scanLines (style : Style) (lines : List String) : List (String × Int) := scanFrom style 0 lines

end CommentOutline.Comment
