import CommentOutline.Config.Value
import CommentOutline.Text.Numeral
import CommentOutline.Text.Point

set_option autoImplicit false

/-! JSON text of configuration values, in ASCII alone. On one line, commas and colons are followed
by a blank; with a number of blanks per level, every item stands on a line of its own. Dates, times
and very long numbers are not written: `firstUnshown?` finds the first one in a value. -/

namespace CommentOutline.Json

open Config (Value Table)

/-- The blanks per level, or none where everything stays on one line. -/
abbrev Layout := Option Nat

def Layout.ofIndent (indent : Option Int) : Layout := indent.map Int.toNat

def floatFormat : Decimal.Format := ⟨-4, 15, 2, "NaN", "Infinity"⟩

def lineStart (layout : Layout) (depth : Nat) : List Char :=
  match layout with
  | none => []
  | some width => '\n' :: List.replicate (width * depth) ' '

def between (layout : Layout) (depth : Nat) : List Char :=
  match layout with
  | none => [',', ' ']
  | some _ => ',' :: lineStart layout depth

def unitEscape (unit : Nat) : List Char :=
  ['\\', 'u', Nat.digitChar (unit / 4096 % 16), Nat.digitChar (unit / 256 % 16),
    Nat.digitChar (unit / 16 % 16), Nat.digitChar (unit % 16)]

section

/-! The code units that a character is written by are a parameter: they are its own, or the half of
a pair that it stands for. -/

variable (unitsOf : Char → List Nat)

def escapeChar (c : Char) : List Char :=
  if c = '"' then ['\\', '"']
  else if c = '\\' then ['\\', '\\']
  else if c = '\n' then ['\\', 'n']
  else if c = '\r' then ['\\', 'r']
  else if c = '\t' then ['\\', 't']
  else if c = '\x0c' then ['\\', 'f']
  else if c = '\x08' then ['\\', 'b']
  else if 32 ≤ c.toNat ∧ c.toNat ≤ 126 then [c]
  else (unitsOf c).flatMap unitEscape

def writeText (text : String) : List Char :=
  '"' :: text.toList.flatMap (escapeChar unitsOf) ++ ['"']

mutual

def write (layout : Layout) (depth : Nat) : Value → List Char
  | .null => ['n', 'u', 'l', 'l']
  | .bool true => ['t', 'r', 'u', 'e']
  | .bool false => ['f', 'a', 'l', 's', 'e']
  | .int value => value.repr.toList
  | .float value => (value.text floatFormat).toList
  | .text value => writeText unitsOf value
  | .moment value => writeText unitsOf value.iso
  | .list [] => ['[', ']']
  | .list (item :: items) =>
      '[' :: lineStart layout (depth + 1) ++ write layout (depth + 1) item ++
        writeItems layout (depth + 1) items ++ lineStart layout depth ++ [']']
  | .table [] => ['{', '}']
  | .table ((key, value) :: entries) =>
      '{' :: lineStart layout (depth + 1) ++ writeText unitsOf key ++ [':', ' '] ++
        write layout (depth + 1) value ++ writeEntries layout (depth + 1) entries ++
        lineStart layout depth ++ ['}']

def writeItems (layout : Layout) (depth : Nat) : List Value → List Char
  | [] => []
  | item :: items =>
      between layout depth ++ write layout depth item ++
        writeItems layout depth items

def writeEntries (layout : Layout) (depth : Nat) : List (String × Value) → List Char
  | [] => []
  | (key, value) :: entries =>
      between layout depth ++ writeText unitsOf key ++ [':', ' '] ++
        write layout depth value ++ writeEntries layout depth entries

end

def renderBy (layout : Layout) (value : Value) : String :=
  String.ofList (write unitsOf layout 0 value)

end

def render (layout : Layout) (value : Value) : String := renderBy Text.units layout value

mutual

def sortKeys : Value → Value
  | .list items => .list (sortItems items)
  | .table entries =>
      .table ((sortEntries entries).mergeSort fun one two => decide (one.1 ≤ two.1))
  | value => value

def sortItems : List Value → List Value
  | [] => []
  | item :: items => sortKeys item :: sortItems items

/-- Sorts inside each value and leaves the entries where they are. -/
def sortEntries : List (String × Value) → List (String × Value)
  | [] => []
  | (key, value) :: entries => (key, sortKeys value) :: sortEntries entries

end

/-- Why a value has no text: a date or time, or a whole number that is too long. -/
inductive Unshown where
  | moment (moment : Config.Moment)
  | long
deriving Repr, DecidableEq

def unshown? : Value → Option Unshown
  | .moment moment => some (.moment moment)
  | .int value => if Text.isLong value then some .long else none
  | _ => none

def firstUnshown? (value : Value) : Option Unshown := value.findLeaf? unshown?

end CommentOutline.Json
