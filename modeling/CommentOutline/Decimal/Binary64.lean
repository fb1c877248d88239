set_option autoImplicit false

/-! Binary floating-point numbers of 64 bits, kept as a sign, a whole significand and a power of
two, and the rounding of decimals to them. -/

namespace CommentOutline.Decimal

/-- A number of the format. A finite one stands for its significand times two to its exponent; the
significand has 53 bits, or fewer at the least exponent. -/
inductive Binary64 where
  | nan
  | infinity (negative : Bool)
  | finite (negative : Bool) (significand : Nat) (exponent : Int)
deriving Repr, DecidableEq, Inhabited

namespace Binary64

def leastExponent : Int := -1074

def greatestExponent : Int := 971

def isZero : Binary64 → Bool
  | .finite _ 0 _ => true
  | _ => false

/-- The whole number nearest to a quotient, of two the even one. -/
def roundDiv (numerator denominator : Nat) : Nat :=
  let quotient := numerator / denominator
  let twice := 2 * (numerator % denominator)
  if twice < denominator then quotient
  else if denominator < twice then quotient + 1
  else if quotient % 2 = 0 then quotient else quotient + 1

def scaleDown (numerator denominator : Nat) : Int → Nat × Nat
  | .ofNat n => (numerator, denominator * Nat.pow 2 n)
  | .negSucc n => (numerator * Nat.pow 2 (n + 1), denominator)

/-- The exponent at which a positive fraction has a whole part of 53 bits, but not below the
least. -/
def exponentOf (numerator denominator : Nat) : Int :=
  let guess : Int := (numerator.log2 : Int) - denominator.log2 - 52
  let scaled := scaleDown numerator denominator guess
  max leastExponent (if scaled.1 / scaled.2 < Nat.pow 2 52 then guess - 1 else guess)

def ofFraction (negative : Bool) (numerator denominator : Nat) : Binary64 :=
  let exponent := exponentOf numerator denominator
  let scaled := scaleDown numerator denominator exponent
  let significand := roundDiv scaled.1 scaled.2
  let carried := significand = Nat.pow 2 53
  let exponent' := if carried then exponent + 1 else exponent
  if greatestExponent < exponent' then .infinity negative
  else .finite negative (if carried then Nat.pow 2 52 else significand) exponent'

/-- The number nearest to `digits` times ten to `exponent`. Decimals far outside the format are
settled without computing them. -/
def ofDecimal (negative : Bool) (digits : Nat) (exponent : Int) : Binary64 :=
  let zero : Binary64 := .finite negative 0 leastExponent
  if digits = 0 then zero
  else
    let leading : Int := (Nat.toDigits 10 digits).length + exponent
    if 400 < leading then .infinity negative
    else if leading < -400 then zero
    else match exponent with
      | .ofNat n => ofFraction negative (digits * Nat.pow 10 n) 1
      | .negSucc n => ofFraction negative digits (Nat.pow 10 (n + 1))

end Binary64

end CommentOutline.Decimal
