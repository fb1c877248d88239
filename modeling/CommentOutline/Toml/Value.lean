import CommentOutline.Toml.Number
import CommentOutline.Toml.Text
import CommentOutline.Toml.Tree

set_option autoImplicit false

/-! Keys and values of TOML. Each reader gives what it has read and the text behind it. -/

namespace CommentOutline.Toml

open Config (Value)

/-- How many parts a key may have, and how deep arrays and tables in braces may be nested. -/
def depthLimit : Nat := 100

def isBareKeyChar (c : Char) : Bool := c.isAlphanum || c = '-' || c = '_'

def skipSpaces (cs : List Char) : List Char := cs.dropWhile isSpace

def keyPart? (cs : List Char) : Option (String × List Char) :=
  match skipSpaces cs with
  | [] => none
  | c :: rest =>
      if c = '"' || c = '\'' then
        match readText? c rest with
        | some read => if read.multiline then none else some (read.text, skipSpaces read.rest)
        | none => none
      else
        let part := (c :: rest).takeWhile isBareKeyChar
        if part.isEmpty then none
        else some (String.ofList part, skipSpaces ((c :: rest).dropWhile isBareKeyChar))

def keyParts? : (limit : Nat) → List Char → Option (List String × List Char)
  | 0, _ => none
  | limit + 1, cs =>
      match keyPart? cs with
      | some (part, '.' :: rest) =>
          (keyParts? limit rest).map fun read => (part :: read.1, read.2)
      | some (part, rest) => some ([part], rest)
      | none => none

def key? (cs : List Char) : Option (List String × List Char) := keyParts? depthLimit cs

def equals? (cs : List Char) : Option (List Char) := (mark? '=' (skipSpaces cs)).map skipSpaces

def isDelimiter (c : Char) : Bool := isSpaceOrBreak c || c = '#' || c = ',' || c = ']' || c = '}'

def numberWords : List (List Char) :=
  [['i', 'n', 'f'], ['n', 'a', 'n'], ['+', 'i', 'n', 'f'], ['-', 'i', 'n', 'f'],
    ['+', 'n', 'a', 'n'], ['-', 'n', 'a', 'n']]

def opensNumber (cs : List Char) : Bool :=
  match cs with
  | [] => false
  | c :: _ =>
      c = '+' || c = '-' || c.isDigit ||
        numberWords.contains ((cs.take 4).takeWhile fun d => !isDelimiter d)

/-- What follows a date alone: up to a delimiter, spaces included, a time may complete it. -/
def afterDate? (date : Config.Date) (raw rest : List Char) : Option (Value × List Char) :=
  let inTime (c : Char) : Bool := c = ' ' || !isDelimiter c
  let more := Text.dropEndBlanks (rest.takeWhile inTime)
  let after := rest.dropWhile inTime
  if more.isEmpty then some (.moment (.date date), after)
  else (dateTime? (raw ++ more)).map fun moment => (.moment moment, after)

def readNumber? (cs : List Char) : Option (Value × List Char) :=
  let raw := cs.takeWhile fun c => !isDelimiter c
  let rest := cs.dropWhile fun c => !isDelimiter c
  match dateAlone? raw, dateTime? raw, timeAlone? raw with
  | some date, _, _ => afterDate? date raw rest
  | none, some moment, _ => some (.moment moment, rest)
  | none, none, some time => some (.moment (.time time), rest)
  | none, none, none => (number? raw).map fun value => (value, rest)

def skipComment? (cs : List Char) : Option (List Char) :=
  let comment := cs.takeWhile fun c => !isBreak c
  if comment.any isForbidden then none else some (cs.dropWhile fun c => !isBreak c)

def skipFiller? : (fuel : Nat) → List Char → Option (List Char)
  | 0, _ => none
  | fuel + 1, cs =>
      match cs.dropWhile isSpaceOrBreak with
      | '#' :: rest => (skipComment? rest).bind fun after => skipFiller? fuel after
      | front => some front

def insideBrackets? (cs : List Char) : Option (List Char) := skipFiller? (cs.length + 1) cs

mutual

/-- A value. The depth says how deep brackets may still be nested in it. -/
def readValue? : (fuel depth : Nat) → List Char → Option (Value × List Char)
  | 0, _, _ => none
  | fuel + 1, depth, cs =>
      match cs with
      | '"' :: rest => (readText? '"' rest).map fun read => (.text read.text, read.rest)
      | '\'' :: rest => (readText? '\'' rest).map fun read => (.text read.text, read.rest)
      | 't' :: 'r' :: 'u' :: 'e' :: rest => some (.bool true, rest)
      | 'f' :: 'a' :: 'l' :: 's' :: 'e' :: rest => some (.bool false, rest)
      | '[' :: rest =>
          match depth with
          | 0 => none
          | depth + 1 => (readItems? fuel depth rest).map fun read => (.list read.1, read.2)
      | '{' :: rest =>
          match depth with
          | 0 => none
          | depth + 1 =>
              (readEntries? fuel depth rest).bind fun read =>
                (Tree.ofEntries? read.1).map fun tree => (.table tree.finish, read.2)
      | _ => if opensNumber cs then readNumber? cs else none

def readItems? : (fuel depth : Nat) → List Char → Option (List Value × List Char)
  | 0, _, _ => none
  | fuel + 1, depth, cs =>
      match insideBrackets? cs with
      | some (']' :: rest) => some ([], rest)
      | some front => do
          let (item, rest) ← readValue? fuel depth front
          match ← insideBrackets? rest with
          | ',' :: rest =>
              let (items, rest) ← readItems? fuel depth rest
              some (item :: items, rest)
          | ']' :: rest => some ([item], rest)
          | _ => none
      | none => none

def readEntries? : (fuel depth : Nat) → List Char →
    Option (List (List String × Value) × List Char)
  | 0, _, _ => none
  | fuel + 1, depth, cs =>
      match insideBrackets? cs with
      | some ('}' :: rest) => some ([], rest)
      | some front => do
          let (entry, rest) ← readPair? fuel depth front
          match ← insideBrackets? rest with
          | ',' :: rest =>
              let (entries, rest) ← readEntries? fuel depth rest
              some (entry :: entries, rest)
          | '}' :: rest => some ([entry], rest)
          | _ => none
      | none => none

def readPair? : (fuel depth : Nat) → List Char → Option ((List String × Value) × List Char)
  | 0, _, _ => none
  | fuel + 1, depth, cs => do
      let (key, rest) ← key? cs
      let (value, rest) ← readValue? fuel depth (← equals? rest)
      some ((key, value), rest)

end

end CommentOutline.Toml
