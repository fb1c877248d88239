import CommentOutline.Comment.Settings

set_option autoImplicit false

/-! The annotation pattern: blanks, an opener, blanks, the marker, blanks, the payload, blanks,
perhaps the closer, and blanks. Where a line can be read in several ways, the first one counts
that has, in this order, the longest first blanks, the earliest opener, the longest blanks around
the marker, and the shortest payload. -/

namespace CommentOutline.Comment

open Text (isBlank)

/-- What may be left of a text after blanks at its front, the longest run of blanks first. -/
def afterBlanks : List Char → List (List Char)
  | [] => [[]]
  | c :: cs => if isBlank c then afterBlanks cs ++ [c :: cs] else [c :: cs]

def after? (start cs : List Char) : Option (List Char) :=
  if start.isPrefixOf cs then some (cs.drop start.length) else none

/-- Whether a text is a closer with nothing but blanks around it. -/
def isClosed (closer : List Char) : List Char → Bool
  | [] => closer.isEmpty
  | c :: cs =>
      (match after? closer (c :: cs) with
        | some blanks => blanks.all isBlank
        | none => false) ||
        (isBlank c && isClosed closer cs)

def isTail (closer cs : List Char) : Bool := cs.all isBlank || isClosed closer cs

/-- The shortest front of a text that is not empty, holds no line feed and leaves a tail. -/
def payload? (closer : List Char) : List Char → Option (List Char)
  | [] => none
  | c :: cs =>
      if c = '\n' then none
      else if isTail closer cs then some [c]
      else (payload? closer cs).map (c :: ·)

def afterMarker? (style : Style) (cs : List Char) : Option (List Char) :=
  (after? style.marker.toList cs).bind fun rest =>
    (afterBlanks rest).findSome? (payload? style.closer.toList)

def afterOpener? (style : Style) (cs : List Char) (opener : String) : Option (List Char) :=
  (after? opener.toList cs).bind fun rest =>
    (afterBlanks rest).findSome? (afterMarker? style)

def matchChars? (style : Style) (cs : List Char) : Option (List Char) :=
  (afterBlanks cs).findSome? fun rest => style.openers.findSome? (afterOpener? style rest)

def matchLine? (style : Style) (line : String) : Option String :=
  (matchChars? style line.toList).map String.ofList

/-! ### The written form of the pattern -/

def isSpecial (c : Char) : Bool :=
  "()[]\x7b\x7d?*+-|^$\\.&~# \t\n\r\x0b\x0c".toList.contains c

def escapeText (text : String) : String :=
  String.ofList (text.toList.flatMap fun c => if isSpecial c then ['\\', c] else [c])

def joinAlternatives : List String → String
  | [] => ""
  | [one] => one
  | one :: two :: more => one ++ "|" ++ joinAlternatives (two :: more)

def Style.patternText (style : Style) : String :=
  let closer := if style.closer = "" then "()?" else "(" ++ escapeText style.closer ++ ")?"
  "^\\s*(" ++ joinAlternatives (style.openers.map escapeText) ++ ")\\s*" ++
    escapeText style.marker ++ "\\s*(.+?)\\s*" ++ closer ++ "\\s*$"

end CommentOutline.Comment
