import CommentOutline.Text.Blank

set_option autoImplicit false

/-! Numerals. The decimal digits of every script count, blanks may stand at either end,
and a single underscore may stand between two digits. -/

namespace CommentOutline.Text

namespace Numeral

/-- The zeros of the scripts that have decimal digits in Unicode 14; nine more digits follow each. -/
def zeros : List Nat := [
  48, 1632, 1776, 1984, 2406, 2534, 2662, 2790, 2918, 3046, 3174, 3302, 3430, 3558, 3664, 3792,
  3872, 4160, 4240, 6112, 6160, 6470, 6608, 6784, 6800, 6992, 7088, 7232, 7248, 42528, 43216, 43264,
  43472, 43504, 43600, 44016, 65296, 66720, 68912, 69734, 69872, 69942, 70096, 70384, 70736, 70864,
  71248, 71360, 71472, 71904, 72016, 72784, 73040, 73120, 92768, 92864, 93008, 120782, 120792,
  120802, 120812, 120822, 123200, 123632, 125264, 130032]

def decimalDigit? (c : Char) : Option Nat :=
  (zeros.find? fun first => first ≤ c.toNat && c.toNat < first + 10).map fun first =>
    c.toNat - first

def digit? (base : Nat) (c : Char) : Option Nat :=
  let value :=
    if 'a' ≤ c ∧ c ≤ 'z' then some (c.toNat - 87)
    else if 'A' ≤ c ∧ c ≤ 'Z' then some (c.toNat - 55)
    else decimalDigit? c
  value.filter fun n => n < base

/-- Digits to the end of a text; `between` says whether an underscore may come next. -/
def digits? (base : Nat) : (between : Bool) → (value : Nat) → List Char → Option Nat
  | between, value, [] => if between then some value else none
  | between, value, c :: cs =>
      if c = '_' then (if between then digits? base false value cs else none)
      else match digit? base c with
        | some n => digits? base true (base * value + n) cs
        | none => none

def baseLetter? (base : Nat) : Option Char :=
  if base = 16 then some 'x' else if base = 8 then some 'o' else if base = 2 then some 'b' else none

/-- A number without its sign: digits, perhaps behind a zero and the letter of the base. -/
def unsigned? (base : Nat) (cs : List Char) : Option Nat :=
  match cs with
  | '0' :: c :: rest =>
      if (baseLetter? base).any fun letter => c = letter || c = letter.toUpper then
        digits? base false 0 (match rest with | '_' :: after => after | _ => rest)
      else digits? base false 0 cs
  | _ => digits? base false 0 cs

def sign : List Char → Bool × List Char
  | '-' :: cs => (true, cs)
  | '+' :: cs => (false, cs)
  | cs => (false, cs)

end Numeral

/-- The most digits that a whole number may have to be written as a text. -/
def digitLimit : Nat := 4300

def isLong (value : Int) : Bool := Nat.pow 10 digitLimit ≤ value.natAbs

/-- The value of a hexadecimal digit of ASCII. -/
def hexDigit? (c : Char) : Option Nat :=
  if c.toNat < 128 then Numeral.digit? 16 c else none

def integer? (base : Nat) (cs : List Char) : Option Int :=
  let signed := Numeral.sign (stripChars cs)
  (Numeral.unsigned? base signed.2).map fun n => if signed.1 then -(n : Int) else n

end CommentOutline.Text
