set_option autoImplicit false

/-! Positions in a list that may count from either end. -/

namespace CommentOutline

/-- The place that a position names among `count` places: from 0 forward, from -1 backward. -/
def place? (count : Nat) : Int → Option Nat
  | .ofNat n => if n < count then some n else none
  | .negSucc n => if n < count then some (count - (n + 1)) else none

def itemAt? {α : Type} (items : List α) (position : Int) : Option α :=
  (place? items.length position).bind fun n => items[n]?

end CommentOutline
