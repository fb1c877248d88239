import CommentOutline.Position

set_option autoImplicit false

/-! Outline nodes. A node has a label, the line it was found on, a key and its children in
first-seen order; a forest is a list of nodes. -/

namespace CommentOutline.Outline

structure Node where
  label : String
  line : Int
  key : String
  children : List Node
deriving Repr, Inhabited

structure Brief where
  label : String
  line : Int
  key : String
deriving Repr, DecidableEq, Inhabited

namespace Node

mutual

def decideEq : (a b : Node) → Decidable (a = b)
  | ⟨label, line, key, children⟩, ⟨label', line', key', children'⟩ =>
      if same : label = label' ∧ line = line' ∧ key = key' then
        match decideEqAll children children' with
        | isTrue below => isTrue (by obtain ⟨rfl, rfl, rfl⟩ := same; rw [below])
        | isFalse differ => isFalse fun h => differ (by injection h)
      else isFalse fun h => same (by injection h with one two three; exact ⟨one, two, three⟩)

def decideEqAll : (a b : List Node) → Decidable (a = b)
  | [], [] => isTrue rfl
  | [], _ :: _ => isFalse (by simp)
  | _ :: _, [] => isFalse (by simp)
  | a :: as, b :: bs =>
      match decideEq a b, decideEqAll as bs with
      | isTrue first, isTrue rest => isTrue (by rw [first, rest])
      | isFalse differ, _ => isFalse fun h => differ (by injection h)
      | _, isFalse differ => isFalse fun h => differ (by injection h)

end

instance : DecidableEq Node := decideEq

def brief (node : Node) : Brief := ⟨node.label, node.line, node.key⟩

def isLeaf (node : Node) : Bool := node.children.isEmpty

def hasChildKey (node : Node) (key : String) : Bool :=
  node.children.any fun child => child.key == key

/-- The node with one more child, unless a child with that key is there. -/
def addChild? (node child : Node) : Option Node :=
  if node.hasChildKey child.key then none
  else some { node with children := node.children ++ [child] }

def caption (node : Node) : String := node.label ++ " (line " ++ node.line.repr ++ ")"

def descend? (node : Node) : List Int → Option Node
  | [] => some node
  | position :: path =>
      (itemAt? node.children position).bind fun child => child.descend? path

/-- The node with a change at the end of a path; a path that leads nowhere changes nothing. -/
def change (node : Node) : List Int → (Node → Node) → Node
  | [], f => f node
  | position :: path, f =>
      match place? node.children.length position with
      | some n => { node with children := node.children.modify n fun child => child.change path f }
      | none => node

end Node

mutual

/-- The node and all below it, every node before its children. -/
def walk : Node → List Brief
  | ⟨label, line, key, children⟩ => ⟨label, line, key⟩ :: walkAll children

def walkAll : List Node → List Brief
  | [] => []
  | node :: nodes => walk node ++ walkAll nodes

end

def count (forest : List Node) : Nat := (walkAll forest).length

/-- The node that a path leads to from a forest; the empty path leads nowhere. -/
def descend? (forest : List Node) : List Int → Option Node
  | [] => none
  | position :: path => (itemAt? forest position).bind fun node => node.descend? path

end CommentOutline.Outline
