import CommentOutline.Config.Moment

set_option autoImplicit false

/-! Configuration values, and tables of them. A table keeps its keys in the order in which they
came. -/

namespace CommentOutline.Config

inductive Value where
  | null
  | bool (value : Bool)
  | int (value : Int)
  | float (value : Decimal.Binary64)
  | text (value : String)
  | moment (value : Moment)
  | list (items : List Value)
  | table (entries : List (String × Value))
deriving Repr, Inhabited

abbrev Table := List (String × Value)

/-- The entries with an item under a key: in place if the key is there, else at the end. -/
def putEntry {α : Type} (entries : List (String × α)) (key : String) (item : α) :
    List (String × α) :=
  match entries with
  | [] => [(key, item)]
  | entry :: rest => if entry.1 = key then (key, item) :: rest else entry :: putEntry rest key item

namespace Value

section

variable {α : Type} (find : Value → Option α)

mutual

/-- The first find among the values that hold no others, in the order of the items and entries. -/
def findLeaf? : Value → Option α
  | .list items => findLeafAmong? items
  | .table entries => findLeafUnder? entries
  | value => find value

def findLeafAmong? : List Value → Option α
  | [] => none
  | item :: items => (findLeaf? item).orElse fun _ => findLeafAmong? items

def findLeafUnder? : List (String × Value) → Option α
  | [] => none
  | (_, value) :: entries => (findLeaf? value).orElse fun _ => findLeafUnder? entries

end

end

mutual

def decideEq : (a b : Value) → Decidable (a = b)
  | .null, b => match b with
      | .null => isTrue rfl
      | .bool _ | .int _ | .float _ | .text _ | .moment _ | .list _ | .table _ => isFalse nofun
  | .bool a, b => match b with
      | .bool b => if h : a = b then isTrue (by rw [h]) else isFalse (by simp [h])
      | .null | .int _ | .float _ | .text _ | .moment _ | .list _ | .table _ => isFalse nofun
  | .int a, b => match b with
      | .int b => if h : a = b then isTrue (by rw [h]) else isFalse (by simp [h])
      | .null | .bool _ | .float _ | .text _ | .moment _ | .list _ | .table _ => isFalse nofun
  | .float a, b => match b with
      | .float b => if h : a = b then isTrue (by rw [h]) else isFalse (by simp [h])
      | .null | .bool _ | .int _ | .text _ | .moment _ | .list _ | .table _ => isFalse nofun
  | .text a, b => match b with
      | .text b => if h : a = b then isTrue (by rw [h]) else isFalse (by simp [h])
      | .null | .bool _ | .int _ | .float _ | .moment _ | .list _ | .table _ => isFalse nofun
  | .moment a, b => match b with
      | .moment b => if h : a = b then isTrue (by rw [h]) else isFalse (by simp [h])
      | .null | .bool _ | .int _ | .float _ | .text _ | .list _ | .table _ => isFalse nofun
  | .list a, b => match b with
      | .list b => match decideEqItems a b with
          | isTrue h => isTrue (by rw [h])
          | isFalse h => isFalse (by simp [h])
      | .null | .bool _ | .int _ | .float _ | .text _ | .moment _ | .table _ => isFalse nofun
  | .table a, b => match b with
      | .table b => match decideEqEntries a b with
          | isTrue h => isTrue (by rw [h])
          | isFalse h => isFalse (by simp [h])
      | .null | .bool _ | .int _ | .float _ | .text _ | .moment _ | .list _ => isFalse nofun

def decideEqItems : (a b : List Value) → Decidable (a = b)
  | [], [] => isTrue rfl
  | [], _ :: _ => isFalse nofun
  | _ :: _, [] => isFalse nofun
  | a :: as, b :: bs =>
      match decideEq a b, decideEqItems as bs with
      | isTrue first, isTrue rest => isTrue (by rw [first, rest])
      | isFalse first, _ => isFalse (by simp [first])
      | _, isFalse rest => isFalse (by simp [rest])

def decideEqEntries : (a b : List (String × Value)) → Decidable (a = b)
  | [], [] => isTrue rfl
  | [], _ :: _ => isFalse nofun
  | _ :: _, [] => isFalse nofun
  | (key, a) :: as, (key', b) :: bs =>
      if same : key = key' then
        match decideEq a b, decideEqEntries as bs with
        | isTrue first, isTrue rest => isTrue (by rw [same, first, rest])
        | isFalse first, _ => isFalse (by simp [first])
        | _, isFalse rest => isFalse (by simp [rest])
      else isFalse (by simp [same])

end

instance : DecidableEq Value := decideEq

/-- Whether a value counts as set: nothing, false, zero and the empty text, list and table do
not. -/
def isSet : Value → Bool
  | .null => false
  | .bool value => value
  | .int value => value != 0
  | .float value => !value.isZero
  | .text value => value != ""
  | .moment _ => true
  | .list items => !items.isEmpty
  | .table entries => !entries.isEmpty

def typeWord : Value → String
  | .null => "NoneType"
  | .bool _ => "bool"
  | .int _ => "int"
  | .float _ => "float"
  | .text _ => "str"
  | .moment (.date _) => "datetime.date"
  | .moment (.time _) => "datetime.time"
  | .moment (.dateTime ..) => "datetime.datetime"
  | .list _ => "list"
  | .table _ => "dict"

def isText : Value → Bool
  | .text _ => true
  | _ => false

def text? : Value → Option String
  | .text value => some value
  | _ => none

end Value

namespace Table

def get? (table : Table) (key : String) : Option Value := table.lookup key

def getD (table : Table) (key : String) (fallback : Value) : Value := (table.get? key).getD fallback

def put (table : Table) (key : String) (value : Value) : Table := putEntry table key value

end Table

end CommentOutline.Config
