import CommentOutline.Text.Quoted
import CommentOutline.Text.Utf8

set_option autoImplicit false

/-! Code points. Some codecs let through halves of surrogate pairs that stand alone; no character is
one, and UTF-8 has no bytes for them. A text holds such a half as a character for private use that
means nothing else in it, and keeps beside it which character stands for which half. -/

namespace CommentOutline.Text

/-! ### Code units -/

/-- The units of a character in UTF-16. -/
def units (c : Char) : List Nat :=
  if c.toNat < 0x10000 then [c.toNat]
  else [0xD800 + (c.toNat - 0x10000) / 1024, 0xDC00 + (c.toNat - 0x10000) % 1024]

def isHigh (unit : Nat) : Bool := 0xD800 ≤ unit && unit < 0xDC00

def isLow (unit : Nat) : Bool := 0xDC00 ≤ unit && unit < 0xE000

def joinPair (high low : Nat) : Char :=
  Char.ofNat (0x10000 + (high - 0xD800) * 1024 + (low - 0xDC00))

/-! ### Code points -/

/-- A code point of a text: a character, or a half of a surrogate pair, counted from U+D800 on. -/
inductive Point where
  | char (c : Char)
  | half (offset : Fin 0x800)
deriving Repr, DecidableEq

namespace Point

def char? : Point → Option Char
  | .char c => some c
  | .half _ => none

def isHalf (point : Point) : Bool := point.char?.isNone

def units : Point → List Nat
  | .char c => Text.units c
  | .half offset => [0xD800 + offset]

def ofUnit (unit : Nat) : Point :=
  if half : 0xD800 ≤ unit ∧ unit < 0xE000 then .half ⟨unit - 0xD800, by omega⟩
  else .char (Char.ofNat unit)

end Point

/-! ### Characters that stand for halves -/

/-- The characters that stand for halves, each with its half. -/
abbrev StandIns := List (Char × Fin 0x800)

namespace StandIns

def point (standIns : StandIns) (c : Char) : Point :=
  match standIns.lookup c with
  | some offset => .half offset
  | none => .char c

def points (standIns : StandIns) (text : String) : List Point := text.toList.map standIns.point

def char (standIns : StandIns) : Point → Char
  | .char c => c
  | .half offset =>
      match standIns.find? fun entry => entry.2 = offset with
      | some entry => entry.1
      | none => '\ufffd'

end StandIns

def isPrivate (c : Char) : Bool :=
  (0xE000 ≤ c.toNat && c.toNat < 0xF900) || 0xF0000 ≤ c.toNat

def privateCount : Nat := 0x21900

def privateChar (n : Nat) : Char := Char.ofNat (if n < 0x1900 then 0xE000 + n else 0xEE700 + n)

/-- Characters for private use that are not taken, as many as are asked for. -/
def freeChars (taken : List Char) (count : Nat) : List Char :=
  let used := taken.filter isPrivate
  let candidates := (List.range (used.length + count)).map privateChar
  (candidates.filter fun c => !used.contains c).take count

/-- The halves in a text, each once. -/
def halvesOf : List Point → List (Fin 0x800)
  | [] => []
  | .char _ :: points => halvesOf points
  | .half offset :: points => (halvesOf points).insert offset

/-- A text of characters alone, and what stands in it for halves. -/
structure Held where
  text : List Char
  standIns : StandIns
deriving Repr, DecidableEq

/-- Holds a text. Nothing stands for a half that the text has elsewhere, or that is among the other
characters. -/
def hold (others : List Char) (points : List Point) : Held :=
  let halves := halvesOf points
  let taken := others ++ points.filterMap Point.char?
  let standIns : StandIns := (freeChars taken halves.length).zip halves
  ⟨points.map standIns.char, standIns⟩

/-! ### Bytes -/

/-- Halves in a row, from an offset on. -/
structure HalfRun where
  offset : Nat
  first : Fin 0x800
  length : Nat
deriving Repr, DecidableEq

def firstRun? (offset : Nat) : List Point → Option HalfRun
  | [] => none
  | .char _ :: points => firstRun? (offset + 1) points
  | .half first :: points =>
      some ⟨offset, first, 1 + (points.takeWhile Point.isHalf).length⟩

theorem firstRun?_map_char (offset : Nat) (cs : List Char) :
    firstRun? offset (cs.map .char) = none := by
  induction cs generalizing offset with
  | nil => rfl
  | cons c cs ih => exact ih (offset + 1)

namespace Utf8

/-- The bytes of a text, or the first halves in it, which have none. -/
def encodePoints (points : List Point) : Except HalfRun (List UInt8) :=
  match firstRun? 0 points with
  | some run => .error run
  | none => .ok (encode (points.filterMap Point.char?))

end Utf8

def HalfRun.message (run : HalfRun) : String :=
  "'utf-8' codec can't encode " ++
    (if run.length = 1 then
      "character '\\u" ++ String.ofList (Quoted.hexDigits 4 (0xD800 + run.first)) ++
        "' in position " ++ run.offset.repr
    else
      "characters in position " ++ run.offset.repr ++ "-" ++
        (run.offset + run.length - 1).repr) ++
    ": surrogates not allowed"

end CommentOutline.Text
