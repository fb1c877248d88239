import CommentOutline.Text.Split

set_option autoImplicit false

/-! Lines of text. A line ends at a line feed, at a carriage return, or at the pair of both; form
feeds and the separators of Unicode end no line. -/

namespace CommentOutline.Text

/-- The lines of a text. The last one counts only if it is not empty. -/
def lineChars : List Char → List (List Char)
  | [] => []
  | '\r' :: '\n' :: cs => [] :: lineChars cs
  | c :: cs =>
      if c = '\r' || c = '\n' then [] :: lineChars cs else extendFirst c (lineChars cs)

def splitLines (text : String) : List String := (lineChars text.toList).map String.ofList

def unifyBreaks : List Char → List Char
  | [] => []
  | '\r' :: '\n' :: cs => '\n' :: unifyBreaks cs
  | c :: cs => (if c = '\r' then '\n' else c) :: unifyBreaks cs

def joinLines : List (List Char) → List Char
  | [] => []
  | [line] => line
  | line :: next :: lines => line ++ '\n' :: joinLines (next :: lines)

end CommentOutline.Text
