import CommentOutline.CommandLine.Scope
import CommentOutline.Text.Numeral
import CommentOutline.Text.Quoted

set_option autoImplicit false

/-! The arguments of a command line, told apart before any of them takes effect. Behind two lone
dashes every argument is an operand. Before, an argument with a dash in front is a switch: spelled
out, with a value behind an equals sign, as the front of exactly one long spelling, or as a letter
with its value or with further letters. Negative numbers and arguments with a blank that fit no
switch are operands. -/

namespace CommentOutline.CommandLine

inductive UsageError where
  | pathMissing
  | unrecognized (arguments : List String)
  | invalidChoice (title value : String) (choices : List String)
  | valueMissing (switch : Switch)
  | valueUnexpected (switch : Switch) (value : String)
  | ambiguous (argument : String) (spellings : List String)
deriving Repr, DecidableEq

def UsageError.message : UsageError → String
  | .pathMissing => "the following arguments are required: path"
  | .unrecognized arguments => "unrecognized arguments: " ++ " ".intercalate arguments
  | .invalidChoice title value choices =>
      "argument " ++ title ++ ": invalid choice: " ++ Text.quoted value ++ " (choose from " ++
        ", ".intercalate (choices.map Text.quoted) ++ ")"
  | .valueMissing switch => "argument " ++ switch.title ++ ": expected one argument"
  | .valueUnexpected switch value =>
      "argument " ++ switch.title ++ ": ignored explicit argument " ++ Text.quoted value
  | .ambiguous argument spellings =>
      "ambiguous option: " ++ argument ++ " could match " ++ ", ".intercalate spellings

/-- A switch as it is written: the spelling meant, and what comes with it in the same argument,
behind an equals sign or at once. -/
structure Written where
  spelling : String
  switch : Switch
  attached : Option String
deriving Repr, DecidableEq

inductive Token where
  | operand (text : String)
  | divider
  | switch (text : String) (written : Written)
  /-- Looks like a switch, but the scope has none like it. -/
  | unknown (text : String)
deriving Repr, DecidableEq

def Token.text : Token → String
  | .operand text | .switch text _ | .unknown text => text
  | .divider => "--"

def cutAtEquals (text : String) : String × Option String :=
  let cs := text.toList
  let front := cs.takeWhile fun c => c ≠ '='
  match cs.drop front.length with
  | [] => (text, none)
  | _ :: value => (String.ofList front, some (String.ofList value))

def isFrontOf (front text : String) : Bool := front.toList.isPrefixOf text.toList

/-- The switches that an argument may mean though it is none of the spellings. -/
def candidates (scope : Scope) (text : String) : List Written :=
  match text.toList with
  | '-' :: '-' :: _ =>
      let (front, value) := cutAtEquals text
      (scope.spellings.filter fun entry => isFrontOf front entry.1).map fun entry =>
        ⟨entry.1, entry.2, value⟩
  | '-' :: letter :: rest =>
      scope.spellings.filterMap fun entry =>
        if entry.1 = String.ofList ['-', letter] then
          some ⟨entry.1, entry.2, some (String.ofList rest)⟩
        else if isFrontOf text entry.1 then some ⟨entry.1, entry.2, none⟩
        else none
  | _ => []

def isDigit (c : Char) : Bool := (Text.Numeral.decimalDigit? c).isSome

/-- Digits behind a dash, perhaps with a point before the last of them, perhaps with a line feed
after all. -/
def isNegativeNumber : List Char → Bool
  | '-' :: cs =>
      let number := if cs.getLast? = some '\n' then cs.dropLast else cs
      let whole := number.takeWhile isDigit
      match number.drop whole.length with
      | [] => !whole.isEmpty
      | '.' :: places => !places.isEmpty && places.all isDigit
      | _ => false
  | _ => false

def tokenOf (scope : Scope) (text : String) : Except UsageError Token :=
  match text.toList with
  | '-' :: _ :: _ =>
      let (front, value) := cutAtEquals text
      match scope.switch? text, value.bind fun _ => scope.switch? front, candidates scope text with
      | some switch, _, _ => .ok (.switch text ⟨text, switch, none⟩)
      | none, some switch, _ => .ok (.switch text ⟨front, switch, value⟩)
      | none, none, [written] => .ok (.switch text written)
      | none, none, first :: second :: others =>
          .error (.ambiguous text ((first :: second :: others).map Written.spelling))
      | none, none, [] =>
          .ok (if isNegativeNumber text.toList || text.toList.contains ' ' then .operand text
            else .unknown text)
  | _ => .ok (.operand text)

def tokens (scope : Scope) : List String → Except UsageError (List Token)
  | [] => .ok []
  | text :: texts =>
      if text = "--" then .ok (.divider :: texts.map .operand)
      else
        match tokenOf scope text with
        | .error error => .error error
        | .ok token => (tokens scope texts).map (token :: ·)

end CommentOutline.CommandLine
