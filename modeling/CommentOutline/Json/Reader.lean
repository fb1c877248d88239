import CommentOutline.Config.Value
import CommentOutline.Text.Numeral
import CommentOutline.Text.Point

set_option autoImplicit false

/-! Reading JSON text. Blanks are the space, the tab and the two line breaks. `NaN` and the
infinities are numbers here, and of two entries with one key the later value counts. Strings hold
characters only, so what a half of a surrogate pair on its own is read as is left open. -/

namespace CommentOutline.Json

open Config (Value Table)
open Text (isHigh isLow joinPair)

def isSpace (c : Char) : Bool := c = ' ' || c = '\t' || c = '\n' || c = '\r'

def skip (cs : List Char) : List Char := cs.dropWhile isSpace

def unit? (a b c d : Char) : Option Nat :=
  match Text.hexDigit? a, Text.hexDigit? b, Text.hexDigit? c, Text.hexDigit? d with
  | some a, some b, some c, some d => some (a * 4096 + b * 256 + c * 16 + d)
  | _, _, _, _ => none

def escaped? (c : Char) : Option Nat :=
  if c = '"' ∨ c = '\\' ∨ c = '/' then some c.toNat
  else if c = 'b' then some 8
  else if c = 'f' then some 12
  else if c = 'n' then some 10
  else if c = 'r' then some 13
  else if c = 't' then some 9
  else none

def readUnits : List Char → Option (List Nat × List Char)
  | [] => none
  | '"' :: rest => some ([], rest)
  | '\\' :: 'u' :: a :: b :: c :: d :: rest =>
      match unit? a b c d, readUnits rest with
      | some unit, some (units, after) => some (unit :: units, after)
      | _, _ => none
  | '\\' :: c :: rest =>
      match escaped? c, readUnits rest with
      | some unit, some (units, after) => some (unit :: units, after)
      | _, _ => none
  | c :: rest =>
      if c = '\\' ∨ c.toNat < 32 then none
      else match readUnits rest with
        | some (units, after) => some (c.toNat :: units, after)
        | none => none

def natOf (digits : List Char) : Nat := digits.foldl (fun n c => 10 * n + (c.toNat - 48)) 0

def readFraction : List Char → List Char × List Char
  | '.' :: rest =>
      let digits := rest.takeWhile Char.isDigit
      if digits.isEmpty then ([], '.' :: rest) else (digits, rest.dropWhile Char.isDigit)
  | cs => ([], cs)

def readSigned (cs : List Char) : Bool × List Char :=
  match cs with
  | '-' :: rest => (true, rest)
  | '+' :: rest => (false, rest)
  | _ => (false, cs)

def readExponent (cs : List Char) : Option Int × List Char :=
  match cs with
  | c :: rest =>
      if c = 'e' ∨ c = 'E' then
        let signed := readSigned rest
        let digits := signed.2.takeWhile Char.isDigit
        if digits.isEmpty then (none, cs)
        else
          let size : Int := natOf digits
          (some (if signed.1 then -size else size), signed.2.dropWhile Char.isDigit)
      else (none, cs)
  | [] => (none, [])

def readUnsigned (negative : Bool) (cs : List Char) : Option (Value × List Char) :=
  let digits := cs.takeWhile Char.isDigit
  let whole := if digits.head? = some '0' then ['0'] else digits
  if whole.isEmpty then none
  else
    let fraction := readFraction (cs.drop whole.length)
    let exponent := readExponent fraction.2
    if fraction.1.isEmpty && exponent.1.isNone then
      let size : Int := natOf whole
      some (.int (if negative then -size else size), exponent.2)
    else
      let power := exponent.1.getD 0 - fraction.1.length
      some (.float (.ofDecimal negative (natOf (whole ++ fraction.1)) power), exponent.2)

def readNumber : List Char → Option (Value × List Char)
  | '-' :: rest => readUnsigned true rest
  | cs => readUnsigned false cs

section

variable (alone : Nat → Char)

def scalar (unit : Nat) : Char :=
  if isHigh unit || isLow unit then alone unit else Char.ofNat unit

/-- The characters of code units; surrogates count in pairs. -/
def joinUnits : List Nat → List Char
  | [] => []
  | [unit] => [scalar alone unit]
  | high :: low :: units =>
      if isHigh high && isLow low then joinPair high low :: joinUnits units
      else scalar alone high :: joinUnits (low :: units)

def readText (cs : List Char) : Option (String × List Char) :=
  (readUnits cs).map fun read => (String.ofList (joinUnits alone read.1), read.2)

mutual

/-- A value at the front of a text, and what follows it. The fuel bounds the nesting and the
number of items. -/
def readValue : (fuel : Nat) → List Char → Option (Value × List Char)
  | 0, _ => none
  | fuel + 1, cs =>
      match cs with
      | '"' :: rest => (readText alone rest).map fun read => (.text read.1, read.2)
      | '[' :: rest =>
          match skip rest with
          | ']' :: after => some (.list [], after)
          | inner => (readItems fuel inner).map fun read => (.list read.1, read.2)
      | '{' :: rest =>
          match skip rest with
          | '}' :: after => some (.table [], after)
          | inner => (readEntries fuel [] inner).map fun read => (.table read.1, read.2)
      | 'n' :: 'u' :: 'l' :: 'l' :: after => some (.null, after)
      | 't' :: 'r' :: 'u' :: 'e' :: after => some (.bool true, after)
      | 'f' :: 'a' :: 'l' :: 's' :: 'e' :: after => some (.bool false, after)
      | 'N' :: 'a' :: 'N' :: after => some (.float .nan, after)
      | 'I' :: 'n' :: 'f' :: 'i' :: 'n' :: 'i' :: 't' :: 'y' :: after =>
          some (.float (.infinity false), after)
      | '-' :: 'I' :: 'n' :: 'f' :: 'i' :: 'n' :: 'i' :: 't' :: 'y' :: after =>
          some (.float (.infinity true), after)
      | _ => readNumber cs

def readItems : (fuel : Nat) → List Char → Option (List Value × List Char)
  | 0, _ => none
  | fuel + 1, cs =>
      match readValue fuel cs with
      | none => none
      | some (item, rest) =>
          match skip rest with
          | ']' :: after => some ([item], after)
          | ',' :: more =>
              (readItems fuel (skip more)).map fun read => (item :: read.1, read.2)
          | _ => none

def readEntries : (fuel : Nat) → Table → List Char → Option (Table × List Char)
  | 0, _, _ => none
  | fuel + 1, table, cs =>
      match cs with
      | '"' :: rest =>
          match readText alone rest with
          | none => none
          | some (key, afterKey) =>
              match skip afterKey with
              | ':' :: afterColon =>
                  match readValue fuel (skip afterColon) with
                  | none => none
                  | some (value, afterValue) =>
                      match skip afterValue with
                      | '}' :: after => some (table.put key value, after)
                      | ',' :: more => readEntries fuel (table.put key value) (skip more)
                      | _ => none
              | _ => none
      | _ => none

end

def readBy? (text : String) : Option Value :=
  let cs := skip text.toList
  match readValue alone (2 * cs.length + 2) cs with
  | some (value, rest) => if (skip rest).isEmpty then some value else none
  | none => none

end

/-- Reads a text in which every half of a surrogate pair has the other half; one on its own is read
as the replacement character. -/
def read? (text : String) : Option Value := readBy? (fun _ => '\ufffd') text

end CommentOutline.Json
