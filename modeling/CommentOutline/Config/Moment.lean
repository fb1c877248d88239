import CommentOutline.Decimal.Shortest

set_option autoImplicit false

/-! Calendar dates and times of day, and their ISO form. -/

namespace CommentOutline.Config

structure Date where
  year : Nat
  month : Nat
  day : Nat
deriving Repr, DecidableEq, Inhabited

structure Time where
  hour : Nat
  minute : Nat
  second : Nat
  microsecond : Nat
deriving Repr, DecidableEq, Inhabited

/-- How a clock stands to universal time: it shows that time itself, or it is ahead of it or
behind it by some hours and minutes, perhaps by none. -/
inductive Offset where
  | universal
  | shifted (behind : Bool) (hours minutes : Nat)
deriving Repr, DecidableEq, Inhabited

inductive Moment where
  | date (date : Date)
  | time (time : Time)
  | dateTime (date : Date) (time : Time) (offset : Option Offset)
deriving Repr, DecidableEq, Inhabited

def isLeapYear (year : Nat) : Bool :=
  year % 4 == 0 && (year % 100 != 0 || year % 400 == 0)

def daysInMonth (year month : Nat) : Nat :=
  if month = 2 then (if isLeapYear year then 29 else 28)
  else if month = 4 || month = 6 || month = 9 || month = 11 then 30 else 31

def Date.isValid (date : Date) : Bool :=
  1 ≤ date.year && date.year ≤ 9999 && 1 ≤ date.month && date.month ≤ 12 &&
    1 ≤ date.day && date.day ≤ daysInMonth date.year date.month

def Time.isValid (time : Time) : Bool :=
  time.hour < 24 && time.minute < 60 && time.second < 60 && time.microsecond < 1000000

def padded (width n : Nat) : String :=
  String.ofList (Decimal.padZeros width (Nat.toDigits 10 n))

def Date.iso (date : Date) : String :=
  padded 4 date.year ++ "-" ++ padded 2 date.month ++ "-" ++ padded 2 date.day

def Time.iso (time : Time) : String :=
  padded 2 time.hour ++ ":" ++ padded 2 time.minute ++ ":" ++ padded 2 time.second ++
    (if time.microsecond = 0 then "" else "." ++ padded 6 time.microsecond)

namespace Offset

def lead : Offset → Int
  | .universal => 0
  | .shifted behind hours minutes =>
      let size : Int := 60 * hours + minutes
      if behind then -size else size

def signed (behind : Bool) (hours minutes : Nat) : String :=
  (if behind then "-" else "+") ++ padded 2 hours ++ ":" ++ padded 2 minutes

def name : Offset → String
  | .universal => "UTC"
  | .shifted behind hours minutes => signed behind hours minutes

/-- The ISO form. No lead counts as one of zero hours, not as a lag. -/
def iso (offset : Offset) : String :=
  signed (offset.lead < 0) (offset.lead.natAbs / 60) (offset.lead.natAbs % 60)

end Offset

def Moment.isoWith (between : String) : Moment → String
  | .date day => day.iso
  | .time clock => clock.iso
  | .dateTime day clock offset =>
      day.iso ++ between ++ clock.iso ++ (offset.map Offset.iso).getD ""

def Moment.iso (moment : Moment) : String := moment.isoWith "T"

end CommentOutline.Config
