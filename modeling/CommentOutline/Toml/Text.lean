import CommentOutline.Text.Numeral

set_option autoImplicit false

/-! Texts of TOML, between one mark or three marks on either side. A double mark allows escapes, a
single one takes every character as it is; three marks allow line breaks. -/

namespace CommentOutline.Toml

def isForbidden (c : Char) : Bool := c.toNat = 0x7F || (c.toNat < 0x20 && c ≠ '\t')

def isSpace (c : Char) : Bool := c = ' ' || c = '\t'

def isBreak (c : Char) : Bool := c = '\n' || c = '\r'

def isSpaceOrBreak (c : Char) : Bool := isSpace c || isBreak c

def escaped? (c : Char) : Option Char :=
  if c = 'b' then some '\x08'
  else if c = 't' then some '\t'
  else if c = 'n' then some '\n'
  else if c = 'f' then some '\x0c'
  else if c = 'r' then some '\r'
  else if c = 'e' then some '\x1b'
  else if c = '"' ∨ c = '\\' then some c
  else none

def numberWidth? (c : Char) : Option Nat :=
  if c = 'x' then some 2 else if c = 'u' then some 4 else if c = 'U' then some 8 else none

def characterOf? (digits : List Char) : Option Char :=
  match digits.mapM Text.hexDigit? with
  | some values =>
      let n := values.foldl (fun n d => 16 * n + d) 0
      if n.isValidChar then some (Char.ofNat n) else none
  | none => none

/-- What an escape stands for, and the text behind it. Between three marks a backslash before a
line break takes away all spaces and breaks that follow. -/
def escape? (multiline : Bool) : List Char → Option (List Char × List Char)
  | [] => none
  | c :: rest =>
      if multiline && isSpaceOrBreak c then
        if ((c :: rest).takeWhile isSpaceOrBreak).contains '\n' then
          some ([], rest.dropWhile isSpaceOrBreak)
        else none
      else match escaped? c with
        | some meant => some ([meant], rest)
        | none =>
            match numberWidth? c with
            | some width =>
                if rest.length < width then none
                else (characterOf? (rest.take width)).map fun meant => ([meant], rest.drop width)
            | none => none

/-- A line break at the front of a text, and the rest. A carriage return alone is none. -/
def lineBreak? : List Char → Option (List Char × List Char)
  | '\n' :: rest => some (['\n'], rest)
  | '\r' :: '\n' :: rest => some (['\r', '\n'], rest)
  | _ => none

/-- The characters of a text up to its closing mark, and what follows. Of four or five marks the
last three close the text. -/
def readMarked (mark : Char) (multiline : Bool) : (fuel : Nat) → List Char →
    Option (List Char × List Char)
  | 0, _ => none
  | _, [] => none
  | fuel + 1, c :: rest =>
      let join (front : List Char) (read : Option (List Char × List Char)) :=
        read.map fun pair => (front ++ pair.1, pair.2)
      match if multiline then lineBreak? (c :: rest) else none with
      | some (found, after) => join found (readMarked mark multiline fuel after)
      | none =>
          if isForbidden c then none
          else if c = mark then
            if multiline then
              let run := (c :: rest).takeWhile fun d => d = mark
              let after := (c :: rest).dropWhile fun d => d = mark
              if run.length < 3 then join run (readMarked mark multiline fuel after)
              else if run.length < 6 then some (run.drop 3, after)
              else none
            else some ([], rest)
          else if c = '\\' && mark = '"' then
            match escape? multiline rest with
            | some (meant, after) => join meant (readMarked mark multiline fuel after)
            | none => none
          else join [c] (readMarked mark multiline fuel rest)

def dropBreak (cs : List Char) : List Char := ((lineBreak? cs).map Prod.snd).getD cs

structure ReadText where
  text : String
  multiline : Bool
  rest : List Char

def readText? (mark : Char) (cs : List Char) : Option ReadText :=
  let finish (multiline : Bool) (body : List Char) : Option ReadText :=
    (readMarked mark multiline (body.length + 1) body).map fun read =>
      ⟨String.ofList read.1, multiline, read.2⟩
  match cs with
  | a :: b :: rest =>
      if a = mark && b = mark then finish true (dropBreak rest)
      else if a = mark then some ⟨"", false, b :: rest⟩
      else finish false cs
  | [a] => if a = mark then some ⟨"", false, []⟩ else none
  | [] => none

end CommentOutline.Toml
