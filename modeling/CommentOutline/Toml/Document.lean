import CommentOutline.Toml.Value

set_option autoImplicit false

/-! TOML documents: first their statements, entries and headers, which form sections, and then the
table that the sections make. -/

namespace CommentOutline.Toml

open Config (Value Table)

structure Header where
  kind : HeaderKind
  key : List String
deriving Repr, DecidableEq, Inhabited

inductive Statement where
  | entry (key : List String) (value : Value)
  | header (header : Header)
deriving Repr, Inhabited

structure Section where
  header : Header
  entries : List (List String × Value)
deriving Repr, Inhabited

/-! ### Statements -/

/-- What may follow a statement on its line: spaces and a comment, then a line break or the end. -/
def skipLineEnd? (cs : List Char) : Option (List Char) := do
  let rest ← match skipSpaces cs with
    | '#' :: comment => skipComment? comment
    | rest => some rest
  if rest.isEmpty then some [] else (lineBreak? rest).map Prod.snd

def header? (cs : List Char) : Option (Header × List Char) :=
  match cs with
  | '[' :: cs =>
      match key? cs with
      | some (key, ']' :: ']' :: rest) => some (⟨.element, key⟩, rest)
      | _ => none
  | cs =>
      match key? cs with
      | some (key, ']' :: rest) => some (⟨.table, key⟩, rest)
      | _ => none

def statement? (cs : List Char) : Option (Statement × List Char) :=
  match cs with
  | '[' :: rest => (header? rest).map fun read => (.header read.1, read.2)
  | _ =>
      (readPair? (3 * cs.length + 3) depthLimit cs).map fun read =>
        (.entry read.1.1 read.1.2, read.2)

def statements? : (fuel : Nat) → List Char → Option (List Statement)
  | 0, _ => none
  | fuel + 1, cs =>
      match skipSpaces cs with
      | [] => some []
      | front =>
          match skipLineEnd? front with
          | some rest => statements? fuel rest
          | none => do
              let (statement, rest) ← statement? front
              let more ← statements? fuel (← skipLineEnd? rest)
              some (statement :: more)

def sections (found : List Statement) : List (List String × Value) × List Section :=
  found.foldr (fun statement (entries, more) =>
    match statement with
    | .entry key value => ((key, value) :: entries, more)
    | .header header => ([], ⟨header, entries⟩ :: more)) ([], [])

/-! ### Tables -/

structure Draft where
  tree : Tree
  /-- The keys at the top that dotted keys or headers began or took up again, in that order. -/
  begun : List String
  /-- The key at the top under which the last section came. -/
  current : Option String
  /-- An array of tables that is passed over, together with all that continues its key. -/
  passedOver : Option (List String)
deriving Inhabited

namespace Draft

def start? (entries : List (List String × Value)) : Option Draft :=
  (Tree.ofEntries? entries).map fun tree =>
    ⟨tree, (entries.filter fun entry => 1 < entry.1.length).filterMap fun entry => entry.1.head?,
      none, none⟩

def timesBegun (draft : Draft) (key : List String) : Nat :=
  key.head?.elim 0 fun top => draft.begun.count top

/-- Whether a header comes straight behind another one of the same table at the top. -/
def isStraight (draft : Draft) (header : Header) : Bool := header.key.head? = draft.current

def continuesPassedOver (draft : Draft) (header : Header) : Bool :=
  draft.isStraight header && draft.passedOver.any fun key =>
    key.isPrefixOf header.key && (header.kind = .element || header.key ≠ key)

/-- Whether an array of tables is to be passed over. A header that takes a table up again is held
against what the table was begun with, but it does not see the tables that were joined since; an
array that would stand in place of one of them adds nothing. -/
def passesOver (draft : Draft) (header : Header) : Bool :=
  header.kind = .element && !draft.isStraight header && 0 < draft.timesBegun header.key &&
    match draft.tree.at? header.key with
    | some (.table (.implied true) _) => true
    | _ => false

def reach (draft : Draft) (header : Header) : Draft :=
  if draft.isStraight header then draft
  else { draft with
    begun := draft.begun ++ header.key.head?.toList
    current := header.key.head?
    passedOver := none }

def add? (draft : Draft) (found : Section) : Option Draft :=
  let header := found.header
  if draft.continuesPassedOver header then some draft
  else if draft.passesOver header then
    some { draft.reach header with passedOver := some header.key }
  else do
    let content ← Tree.ofEntries? found.entries
    let joined := draft.isStraight header && 1 < draft.timesBegun header.key
    let tree ← Tree.place? joined header.kind content draft.tree header.key
    some { draft.reach header with tree := tree }

end Draft

/-- The table that a document writes; none if it is no valid TOML. -/
def read? (text : String) : Option Table := do
  let cs := text.toList
  let (entries, rest) := sections (← statements? (cs.length + 1) cs)
  let draft ← rest.foldlM Draft.add? (← Draft.start? entries)
  some draft.tree.finish

end CommentOutline.Toml
