import CommentOutline.Config.Value
import CommentOutline.Outline.Key
import CommentOutline.Outline.Node
import CommentOutline.Text.Blank
import CommentOutline.Text.Split

set_option autoImplicit false

/-! Building an outline from annotations. A label without the separator is a root of its own. A
label with it is a path: its first pieces name groups, which annotations with the same pieces
share, and its last piece is an entry. Groups are found again by key, and one group may come to
stand below several others, so the builder keeps its nodes in a store of numbered cells. Starting
over leaves the cells and the root lists of earlier outlines in place. -/

namespace CommentOutline.Outline

/-- A node in the store; its children are named by their numbers. -/
structure Cell where
  label : String
  line : Int
  key : String
  children : List Nat
deriving Repr, DecidableEq

/-- The setting that cuts labels into paths: a text, as it should be, or a value of another
type. -/
inductive Separator where
  | token (text : String)
  | notText (value : Config.Value)
deriving Repr, DecidableEq

inductive BuildError where
  | emptySeparator
  | separatorNotText (value : Config.Value)
  | noSegments
  | missingContainer (key : String)
deriving Repr, DecidableEq

structure Builder where
  separator : Separator
  cells : List Cell
  /-- The root lists of the outlines given up so far, oldest first. -/
  past : List (List Nat)
  roots : List Nat
  containers : List (String × Nat)
deriving Repr, DecidableEq

def grow (cells : List Cell) : (depth : Nat) → List Nat → List Node
  | 0, _ => []
  | depth + 1, ids => ids.filterMap fun id =>
      cells[id]?.map fun cell =>
        ⟨cell.label, cell.line, cell.key, grow cells depth cell.children⟩

/-- A key is longer than the keys above it, so no path in the store has more cells than this. -/
def depthBound (cells : List Cell) : Nat :=
  cells.foldr (fun cell bound => max (cell.key.length + 1) bound) 1

namespace Builder

def start (separator : Separator) : Builder := ⟨separator, [], [], [], []⟩

def reset (builder : Builder) : Builder :=
  { builder with past := builder.past ++ [builder.roots], roots := [], containers := [] }

def view (builder : Builder) (ids : List Nat) : List Node :=
  grow builder.cells (depthBound builder.cells) ids

def forest (builder : Builder) : List Node := builder.view builder.roots

def findContainer? (builder : Builder) (key : String) : Option Node :=
  (builder.containers.lookup key).bind fun id => (builder.view [id]).head?

/-- The number that names the current root list, also after later resets. -/
def hold (builder : Builder) : Nat := builder.past.length

def held (builder : Builder) (mark : Nat) : List Node :=
  builder.view ((builder.past ++ [builder.roots]).getD mark [])

def newCell (builder : Builder) (label : String) (line : Int) (key : String) : Nat × Builder :=
  (builder.cells.length, { builder with cells := builder.cells ++ [⟨label, line, key, []⟩] })

def register (builder : Builder) (key : String) (id : Nat) : Builder :=
  { builder with containers := builder.containers ++ [(key, id)] }

def addRoot (builder : Builder) (id : Nat) : Builder :=
  { builder with roots := builder.roots ++ [id] }

def append (builder : Builder) (parent child : Nat) : Builder :=
  { builder with
    cells := builder.cells.modify parent fun cell =>
      { cell with children := cell.children ++ [child] } }

def hasChildKey (builder : Builder) (parent : Nat) (key : String) : Bool :=
  match builder.cells[parent]? with
  | some cell => cell.children.any fun child =>
      match builder.cells[child]? with
      | some below => below.key == key
      | none => false
  | none => false

/-- Puts a cell below another one unless a child with its key is there. -/
def offer (builder : Builder) (parent child : Nat) (key : String) : Builder :=
  if builder.hasChildKey parent key then builder else builder.append parent child

def container (builder : Builder) (label : String) (line : Int) (key : String) : Nat × Builder :=
  match builder.containers.lookup key with
  | some id => (id, builder)
  | none =>
      let made := builder.newCell label line key
      (made.1, made.2.register key made.1)

/-- The group at the top of a path; a missing one becomes the last root. -/
def topContainer (builder : Builder) (label : String) (line : Int) : Builder :=
  match builder.containers.lookup label with
  | some _ => builder
  | none =>
      let made := builder.newCell label line label
      (made.2.addRoot made.1).register label made.1

def addBelow (line : Int) : (parent : String) → List String → Builder → Except BuildError Builder
  | _, [], builder => .ok builder
  | parent, [label], builder =>
      let made := builder.newCell label line (leafKey parent label line)
      match made.2.containers.lookup parent with
      | some above => .ok (made.2.append above made.1)
      | none => .error (.missingContainer parent)
  | parent, label :: next :: rest, builder =>
      let key := containerKey parent label
      let found := builder.container label line key
      match found.2.containers.lookup parent with
      | some above => addBelow line key (next :: rest) (found.2.offer above found.1 key)
      | none => .error (.missingContainer parent)

/-- Adds an annotation given as a path; a path of one label only makes sure of its group. -/
def addPath (builder : Builder) (segments : List String) (line : Int) : Except BuildError Builder :=
  match segments with
  | [] => .error .noSegments
  | top :: rest => addBelow line top rest (builder.topContainer top line)

def addFlat (builder : Builder) (label : String) (line : Int) : Builder :=
  let made := builder.newCell label line label
  made.2.addRoot made.1

def segments (separator label : String) : List String :=
  (Text.split separator label).map Text.strip

def add (builder : Builder) (label : String) (line : Int) : Except BuildError Builder :=
  match builder.separator with
  | .notText value => .error (.separatorNotText value)
  | .token "" => .error .emptySeparator
  | .token separator =>
      if Text.contains label separator then builder.addPath (segments separator label) line
      else .ok (builder.addFlat label line)

def addAll (builder : Builder) : List (String × Int) → Builder × Option BuildError
  | [] => (builder, none)
  | (label, line) :: pairs =>
      match builder.add label line with
      | .ok next => next.addAll pairs
      | .error error => (builder, some error)

def build (builder : Builder) (pairs : List (String × Int)) : Builder × Option BuildError :=
  builder.reset.addAll pairs

end Builder

structure Tally where
  annotations : Nat
  roots : Nat
  containers : Nat
deriving Repr, DecidableEq

def Builder.tally (builder : Builder) (pairs : List (String × Int)) : Tally :=
  ⟨pairs.length, builder.roots.length, builder.containers.length⟩

def buildForest (separator : Separator) (pairs : List (String × Int)) :
    Except BuildError (List Node) :=
  match (Builder.start separator).build pairs with
  | (builder, none) => .ok builder.forest
  | (_, some error) => .error error

end CommentOutline.Outline
