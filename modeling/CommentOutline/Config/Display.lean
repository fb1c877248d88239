import CommentOutline.Config.Value
import CommentOutline.Text.Numeral
import CommentOutline.Text.Quoted

set_option autoImplicit false

/-! Configuration values as messages show them: a text alone stands as it is, and quoted inside
lists and tables. -/

namespace CommentOutline.Config

/-- Floats are positional from 0.0001 up to 16 digits before the point. -/
def floatFormat : Decimal.Format := ⟨-4, 15, 2, "nan", "inf"⟩

def commaJoin : List String → String
  | [] => ""
  | [item] => item
  | item :: next :: items => item ++ ", " ++ commaJoin (next :: items)

namespace Moment

def dateFields (day : Date) : List String :=
  [day.year.repr, day.month.repr, day.day.repr]

def timeFields (clock : Time) : List String :=
  [clock.hour.repr, clock.minute.repr] ++
    (if clock.second = 0 && clock.microsecond = 0 then [] else [clock.second.repr]) ++
    (if clock.microsecond = 0 then [] else [clock.microsecond.repr])

/-- A clock's lead over universal time as whole days and the seconds that remain, and its name. -/
def offsetField (offset : Offset) : String :=
  let days := offset.lead.fdiv 1440
  let seconds := offset.lead.fmod 1440 * 60
  let fields := (if days = 0 then [] else ["days=" ++ days.repr]) ++
    (if seconds = 0 then [] else ["seconds=" ++ seconds.repr])
  let lead := if fields.isEmpty then "0" else commaJoin fields
  "tzinfo=datetime.timezone(datetime.timedelta(" ++ lead ++ "), " ++ Text.quoted offset.name ++ ")"

def shownInside : Moment → String
  | .date day => "datetime.date(" ++ commaJoin (dateFields day) ++ ")"
  | .time clock => "datetime.time(" ++ commaJoin (timeFields clock) ++ ")"
  | .dateTime day clock offset =>
      "datetime.datetime(" ++
        commaJoin (dateFields day ++ timeFields clock ++ (offset.map offsetField).toList) ++ ")"

end Moment

namespace Value

mutual

def shownInside : Value → String
  | .null => "None"
  | .bool value => if value then "True" else "False"
  | .int value => value.repr
  | .float value => value.text floatFormat
  | .text value => Text.quoted value
  | .moment value => value.shownInside
  | .list items => "[" ++ commaJoin (shownItems items) ++ "]"
  | .table entries => "\x7b" ++ commaJoin (shownEntries entries) ++ "\x7d"

def shownItems : List Value → List String
  | [] => []
  | item :: items => shownInside item :: shownItems items

def shownEntries : List (String × Value) → List String
  | [] => []
  | (key, value) :: entries =>
      (Text.quoted key ++ ": " ++ shownInside value) :: shownEntries entries

end

def shown : Value → String
  | .text value => value
  | .moment value => value.isoWith " "
  | value => value.shownInside

/-- There is a number in the value that is too long to be shown. -/
def hasLong (value : Value) : Bool :=
  (value.findLeaf? fun
    | .int number => if Text.isLong number then some () else none
    | _ => none).isSome

end Value

end CommentOutline.Config
