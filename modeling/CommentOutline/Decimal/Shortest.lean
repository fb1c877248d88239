import CommentOutline.Decimal.Binary64

set_option autoImplicit false

/-! The shortest decimal that reads back as a given binary number. Of the decimals with the fewest
digits the one nearest to the number is taken. -/

namespace CommentOutline.Decimal

structure Scaled where
  digits : Nat
  exponent : Int
deriving Repr, DecidableEq

/-- The decimals that round to one number: all between two bounds over a common denominator. -/
structure Interval where
  low : Nat
  value : Nat
  high : Nat
  denominator : Nat
  closed : Bool
deriving Repr, DecidableEq

namespace Interval

/-- The interval of a positive number. Its lower neighbour is nearer when the significand is the
least one with its exponent. -/
def ofFinite (significand : Nat) (exponent : Int) : Interval :=
  let narrow := significand = Nat.pow 2 52 ∧ Binary64.leastExponent < exponent
  let below := if narrow then 1 else 2
  let closed := significand % 2 = 0
  match exponent - 2 with
  | .ofNat n =>
      let unit := Nat.pow 2 n
      ⟨(4 * significand - below) * unit, 4 * significand * unit, (4 * significand + 2) * unit, 1,
        closed⟩
  | .negSucc n =>
      ⟨4 * significand - below, 4 * significand, 4 * significand + 2, Nat.pow 2 (n + 1), closed⟩

/-- A decimal as a numerator over the interval's denominator times the second component. -/
def measure (interval : Interval) (decimal : Scaled) : Nat × Nat :=
  match decimal.exponent with
  | .ofNat n => (decimal.digits * Nat.pow 10 n * interval.denominator, 1)
  | .negSucc n => (decimal.digits * interval.denominator, Nat.pow 10 (n + 1))

def contains (interval : Interval) (decimal : Scaled) : Bool :=
  let measured := interval.measure decimal
  let low := interval.low * measured.2
  let high := interval.high * measured.2
  if interval.closed then low ≤ measured.1 && measured.1 ≤ high
  else low < measured.1 && measured.1 < high

/-- How far a decimal is from the number, over the denominators of its measure. -/
def distance (interval : Interval) (decimal : Scaled) : Nat :=
  let measured := interval.measure decimal
  let value := interval.value * measured.2
  (measured.1 - value) + (value - measured.1)

/-- The whole number of steps of ten to `exponent` below the number. -/
def floor (interval : Interval) : (exponent : Int) → Nat
  | .ofNat n => interval.value / (interval.denominator * Nat.pow 10 n)
  | .negSucc n => interval.value * Nat.pow 10 (n + 1) / interval.denominator

def leading (interval : Interval) : Int :=
  let guess : Int :=
    (Nat.toDigits 10 interval.value).length - (Nat.toDigits 10 interval.denominator).length
  if interval.floor guess = 0 then guess - 1 else guess

/-- The better of the two decimals around the number with a given last place, if one reads
back. -/
def onGrid? (interval : Interval) (exponent : Int) : Option Scaled :=
  let below : Scaled := ⟨interval.floor exponent, exponent⟩
  let above : Scaled := ⟨interval.floor exponent + 1, exponent⟩
  match interval.contains below, interval.contains above with
  | true, false => some below
  | false, true => some above
  | false, false => none
  | true, true =>
      let toBelow := interval.distance below
      let toAbove := interval.distance above
      if toBelow < toAbove then some below
      else if toAbove < toBelow then some above
      else if below.digits % 2 = 0 then some below else some above

def search (interval : Interval) (leading : Int) : (tries count : Nat) → Option Scaled
  | 0, _ => none
  | tries + 1, count =>
      match interval.onGrid? (leading + 1 - count) with
      | some decimal => some decimal
      | none => search interval leading tries (count + 1)

end Interval

def Scaled.normal (decimal : Scaled) : List Char × Int :=
  let digits := Nat.toDigits 10 decimal.digits
  let kept := (digits.reverse.dropWhile fun c => c = '0').reverse
  (kept, decimal.exponent + digits.length - 1)

structure Format where
  leastPositional : Int
  greatestPositional : Int
  exponentDigits : Nat
  nan : String
  infinity : String

def padZeros (width : Nat) (digits : List Char) : List Char :=
  List.replicate (width - digits.length) '0' ++ digits

def positional (digits : List Char) (exponent : Int) : List Char :=
  match exponent with
  | .negSucc n => "0.".toList ++ List.replicate n '0' ++ digits
  | .ofNat n =>
      let padded := digits ++ List.replicate (n + 1 - digits.length) '0'
      let rest := padded.drop (n + 1)
      padded.take (n + 1) ++ '.' :: (if rest.isEmpty then ['0'] else rest)

def scientific (format : Format) (digits : List Char) (exponent : Int) : List Char :=
  let rest := digits.drop 1
  digits.take 1 ++ (if rest.isEmpty then [] else '.' :: rest) ++ ['e'] ++
    (if exponent < 0 then ['-'] else ['+']) ++
    padZeros format.exponentDigits (Nat.toDigits 10 exponent.natAbs)

def Binary64.text (format : Format) : Binary64 → String
  | .nan => format.nan
  | .infinity negative => (if negative then "-" else "") ++ format.infinity
  | .finite negative significand exponent =>
      let sign := if negative then "-" else ""
      if significand = 0 then sign ++ "0.0"
      else
        let interval := Interval.ofFinite significand exponent
        match interval.search interval.leading 17 1 with
        | none => sign
        | some decimal =>
            let normal := decimal.normal
            let body :=
              if format.leastPositional ≤ normal.2 ∧ normal.2 ≤ format.greatestPositional then
                positional normal.1 normal.2
              else scientific format normal.1 normal.2
            sign ++ String.ofList body

end CommentOutline.Decimal
