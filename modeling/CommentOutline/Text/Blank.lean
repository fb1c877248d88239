set_option autoImplicit false

/-! Blank characters, and text without the blanks at its ends. -/

namespace CommentOutline.Text

/-- The blanks of Unicode: tab to carriage return, the four separators before the space, the
space, next line, and the spaces and separators of the higher planes. -/
def isBlank (c : Char) : Bool :=
  let n := c.toNat
  (9 ≤ n && n ≤ 13) || (28 ≤ n && n ≤ 32) || n == 0x85 || n == 0xA0 || n == 0x1680 ||
    (0x2000 ≤ n && n ≤ 0x200A) || n == 0x2028 || n == 0x2029 || n == 0x202F || n == 0x205F ||
    n == 0x3000

def dropBlanks (cs : List Char) : List Char := cs.dropWhile isBlank

def dropEndBlanks (cs : List Char) : List Char := (cs.reverse.dropWhile isBlank).reverse

def stripChars (cs : List Char) : List Char := dropEndBlanks (dropBlanks cs)

def strip (text : String) : String := String.ofList (stripChars text.toList)

end CommentOutline.Text
