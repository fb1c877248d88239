set_option autoImplicit false

/-! Cutting a text at a separator. Occurrences are taken from the left and do not overlap. -/

namespace CommentOutline.Text

/-- Whether `part` stands somewhere in a text; the empty text stands everywhere. -/
def occursIn (part : List Char) : List Char → Bool
  | [] => part.isEmpty
  | c :: cs => part.isPrefixOf (c :: cs) || occursIn part cs

def extendFirst (c : Char) : List (List Char) → List (List Char)
  | [] => [[c]]
  | piece :: pieces => (c :: piece) :: pieces

/-- The pieces of a text between occurrences of a separator. The first argument counts the
characters of an occurrence that are still to be passed over. -/
def splitFrom (separator : List Char) : (passing : Nat) → List Char → List (List Char)
  | _, [] => [[]]
  | passing + 1, _ :: cs => splitFrom separator passing cs
  | 0, c :: cs =>
      if separator.isPrefixOf (c :: cs) then [] :: splitFrom separator (separator.length - 1) cs
      else extendFirst c (splitFrom separator 0 cs)

def splitChars (separator cs : List Char) : List (List Char) := splitFrom separator 0 cs

def contains (text part : String) : Bool := occursIn part.toList text.toList

def split (separator text : String) : List String :=
  (splitChars separator.toList text.toList).map String.ofList

end CommentOutline.Text
