import CommentOutline.Config.Value
import CommentOutline.Text.Lowercase
import CommentOutline.Toml.Moment

set_option autoImplicit false

/-! Numbers of TOML: integers in four bases, and floats. -/

namespace CommentOutline.Toml

open Config (Value)
open Decimal (Binary64)

def leadingDigits : List Char → List Nat × List Char
  | [] => ([], [])
  | c :: cs =>
      match Text.Numeral.decimalDigit? c with
      | some n => let more := leadingDigits cs; (n :: more.1, more.2)
      | none => ([], c :: cs)

def exponent? : List Char → Option Int
  | [] => some 0
  | 'e' :: cs =>
      let signed := Text.Numeral.sign cs
      let read := leadingDigits signed.2
      if read.1.isEmpty || !read.2.isEmpty then none
      else
        let size : Int := natOfDigits read.1
        some (if signed.1 then -size else size)
  | _ => none

/-- A float in lower case: digits with point and exponent. -/
def float? (cs : List Char) : Option Binary64 :=
  let signed := Text.Numeral.sign (Text.stripChars cs)
  let whole := leadingDigits signed.2
  let fraction := match whole.2 with
    | '.' :: rest => leadingDigits rest
    | rest => ([], rest)
  let digits := whole.1 ++ fraction.1
  if digits.isEmpty then none
  else (exponent? fraction.2).map fun power =>
    .ofDecimal signed.1 (natOfDigits digits) (power - fraction.1.length)

def special? (cs : List Char) : Option Binary64 :=
  let signed := Text.Numeral.sign cs
  if signed.2 = ['i', 'n', 'f'] then some (.infinity signed.1)
  else if signed.2 = ['n', 'a', 'n'] then some .nan
  else none

def baseOf (cs : List Char) : Nat :=
  match cs with
  | '0' :: 'b' :: _ => 2
  | '0' :: 'o' :: _ => 8
  | '0' :: 'x' :: _ => 16
  | _ => 10

def isBaseDigit (base : Nat) (c : Char) : Bool :=
  c.toNat < 128 && (Text.Numeral.digit? base c).isSome

/-- Drops the underscores between two digits of the base. -/
def joinDigits (base : Nat) : List Char → List Char
  | [] => []
  | [c] => [c]
  | [a, b] => [a, b]
  | a :: '_' :: b :: rest =>
      if isBaseDigit base a && isBaseDigit base b then a :: joinDigits base (b :: rest)
      else a :: '_' :: joinDigits base (b :: rest)
  | c :: rest => c :: joinDigits base rest

def startsWithAny (starts : List (List Char)) (cs : List Char) : Bool :=
  starts.any fun start => start.isPrefixOf cs

def based : List (List Char) := [['0', 'o'], ['0', 'x'], ['0', 'b']]

/-- Whether a number breaks the rules on its front: no zero before other digits, no sign before a
point or a base. -/
def hasBadFront (signed : Bool) (cs : List Char) : Bool :=
  (1 < cs.length &&
    ((cs.head? = some '0' && !startsWithAny (based ++ [['0', '.'], ['0', 'e'], ['0', 'E']]) cs) ||
      (signed && cs.head? = some '.'))) ||
    (signed && startsWithAny based cs)

def hasBarePoint (cs : List Char) : Bool :=
  cs.getLast? = some '.' ||
    (!startsWithAny [['0', 'x']] cs && (cs.takeWhile fun c => c ≠ 'e').getLast? = some '.')

def digits? (raw : List Char) : Option Value :=
  let signed := raw.head? = some '+' ∨ raw.head? = some '-'
  let body := if signed then raw.drop 1 else raw
  if hasBadFront signed body then none
  else
    let base := baseOf body
    let clean := (Text.lowercase (String.ofList (joinDigits base body))).toList
    if clean.contains '_' || hasBarePoint clean then none
    else
      let full := (if signed then raw.take 1 else []) ++ clean
      match Text.integer? base full with
      | some n => some (.int n)
      | none => (float? full).map .float

def number? (raw : List Char) : Option Value :=
  match special? raw with
  | some float => some (.float float)
  | none => digits? raw

end CommentOutline.Toml
