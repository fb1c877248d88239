import CommentOutline.Config.Moment
import CommentOutline.Text.Numeral

set_option autoImplicit false

/-! Dates and times of TOML. The year of a date that a time follows in one run may be written in
the digits of any script; all other digits are ASCII. -/

namespace CommentOutline.Toml

open Config (Date Time Moment Offset)

def natOfDigits (digits : List Nat) : Nat := digits.foldl (fun n d => 10 * n + d) 0

def asciiDigit? (c : Char) : Option Nat := if c.isDigit then some (c.toNat - 48) else none

def fixedDigits? (digit? : Char → Option Nat) (count : Nat) (cs : List Char) :
    Option (Nat × List Char) :=
  if cs.length < count then none
  else ((cs.take count).mapM digit?).map fun digits => (natOfDigits digits, cs.drop count)

def twoDigits? : List Char → Option (Nat × List Char) := fixedDigits? asciiDigit? 2

def mark? (mark : Char) : List Char → Option (List Char)
  | c :: rest => if c = mark then some rest else none
  | [] => none

def date? (yearDigit? : Char → Option Nat) (cs : List Char) : Option (Date × List Char) := do
  let (year, rest) ← fixedDigits? yearDigit? 4 cs
  let rest ← mark? '-' rest
  let (month, rest) ← twoDigits? rest
  let rest ← mark? '-' rest
  let (day, rest) ← twoDigits? rest
  let date : Date := ⟨year, month, day⟩
  if date.isValid then some (date, rest) else none

/-- Six digits of a fraction of a second; further digits are cut off, missing ones are zeros. -/
def microseconds (digits : List Char) : Nat :=
  natOfDigits (((digits ++ List.replicate 6 '0').take 6).filterMap asciiDigit?)

def fraction? : List Char → Option (Nat × List Char)
  | '.' :: rest =>
      let digits := rest.takeWhile Char.isDigit
      if digits.isEmpty then none else some (microseconds digits, rest.dropWhile Char.isDigit)
  | rest => some (0, rest)

def seconds? : List Char → Option (Nat × Nat × List Char)
  | ':' :: rest => do
      let (second, rest) ← twoDigits? rest
      let (microsecond, rest) ← fraction? rest
      some (second, microsecond, rest)
  | rest => some (0, 0, rest)

/-- A time of day at the front of a text. The seconds may be left out. -/
def time? (cs : List Char) : Option (Time × List Char) := do
  let (hour, rest) ← twoDigits? cs
  let rest ← mark? ':' rest
  let (minute, rest) ← twoDigits? rest
  let (second, microsecond, rest) ← seconds? rest
  let time : Time := ⟨hour, minute, second, microsecond⟩
  if time.isValid then some (time, rest) else none

/-- The offset at the end of a text: none, a Z, or hours and minutes behind a sign. -/
def offset? : List Char → Option (Option Offset)
  | [] => some none
  | [c] => if c = 'Z' || c = 'z' then some (some .universal) else none
  | c :: rest => do
      if c ≠ '+' && c ≠ '-' then none
      let (hours, rest) ← twoDigits? rest
      let rest ← mark? ':' rest
      let (minutes, rest) ← twoDigits? rest
      if rest.isEmpty && hours < 24 && minutes < 60 then
        some (some (.shifted (c = '-') hours minutes))
      else none

/-- A date with a time behind it, after a T or a blank. -/
def dateTime? (cs : List Char) : Option Moment := do
  let (date, rest) ← date? Text.Numeral.decimalDigit? cs
  match rest with
  | [] => none
  | c :: rest =>
      if c ≠ 'T' && c ≠ 't' && c ≠ ' ' then none
      let (time, rest) ← time? rest
      let offset ← offset? rest
      some (.dateTime date time offset)

def dateAlone? (cs : List Char) : Option Date :=
  match date? asciiDigit? cs with
  | some (date, []) => some date
  | _ => none

def timeAlone? (cs : List Char) : Option Time :=
  match time? cs with
  | some (time, []) => some time
  | _ => none

end CommentOutline.Toml
