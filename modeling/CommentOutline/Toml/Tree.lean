import CommentOutline.Config.Value

set_option autoImplicit false

/-! Tables of TOML while a document is read. Headers and dotted keys add to them; what may still
be added to a table depends on how it came to be. -/

namespace CommentOutline.Toml

open Config (Value Table)

/-- What may still become of a table. -/
inductive Standing where
  /-- Named only on the way to other tables, so that a header may yet open it. A table is `joined`
  if its header came straight behind another one of the same table at the top, when that table
  had been begun before. -/
  | implied (joined : Bool)
  /-- Opened by a header, or begun by dotted keys: only headers below it may add to it. -/
  | settled
deriving Repr, DecidableEq, Inhabited

inductive HeaderKind where
  | table
  | element
deriving Repr, DecidableEq, Inhabited

inductive Node where
  | value (value : Value)
  | table (standing : Standing) (entries : List (String × Node))
  /-- An array of tables: those that are finished, and the last one, to which headers add. -/
  | array (finished : List Value) (last : List (String × Node))
deriving Repr, Inhabited

abbrev Tree := List (String × Node)

mutual

def Node.finish : Node → Value
  | .value found => found
  | .table _ entries => .table (Node.finishAll entries)
  | .array finished last => .list (finished ++ [.table (Node.finishAll last)])

def Node.finishAll : List (String × Node) → List (String × Value)
  | [] => []
  | (key, node) :: entries => (key, node.finish) :: Node.finishAll entries

end

namespace Tree

def finish (tree : Tree) : Table := Node.finishAll tree

def put (tree : Tree) (key : String) (node : Node) : Tree := Config.putEntry tree key node

/-- The node that a key names by way of tables alone. -/
def at? (tree : Tree) : (key : List String) → Option Node
  | [] => none
  | [part] => tree.lookup part
  | part :: next :: parts =>
      match tree.lookup part with
      | some (.table _ entries) => at? entries (next :: parts)
      | _ => none

def branch (value : Value) : (key : List String) → Node
  | [] => .value value
  | part :: parts => .table .settled [(part, branch value parts)]

/-- Adds a value under a dotted key among other entries of the same section. The tables on the way
are new or were begun by dotted keys of the section. -/
def insert? (value : Value) (tree : Tree) : (key : List String) → Option Tree
  | [] => none
  | part :: parts =>
      match tree.lookup part, parts with
      | none, _ => some (tree ++ [(part, branch value parts)])
      | some (.table standing entries), next :: others =>
          (insert? value entries (next :: others)).map fun grown =>
            tree.put part (.table standing grown)
      | some _, _ => none

def ofEntries? (entries : List (List String × Value)) : Option Tree :=
  entries.foldlM (fun tree entry => insert? entry.2 tree entry.1) []

mutual

/-- Adds a section to what headers below its own have left there. A table that dotted keys begin
may be there already if it is implied. -/
def graftNode? : Node → (old : Option Node) → Option Node
  | node, none => some node
  | .table _ entries, some (.table (.implied _) before) =>
      (graftAll? entries before).map fun grown => .table .settled grown
  | _, some _ => none

def graftAll? : List (String × Node) → (old : Tree) → Option Tree
  | [], old => some old
  | (key, node) :: entries, old =>
      match graftNode? node (old.lookup key) with
      | some grown => graftAll? entries (old.put key grown)
      | none => none

end

def open? (kind : HeaderKind) (content : Tree) (old : Option Node) : Option Node :=
  match kind, old with
  | .table, none => some (.table .settled content)
  | .table, some (.table (.implied _) before) =>
      (graftAll? content before).map fun grown => .table .settled grown
  | .element, none => some (.array [] content)
  | .element, some (.array finished last) =>
      some (.array (finished ++ [.table (finish last)]) content)
  | _, some _ => none

/-- Puts a section under the key of its header. Tables that have to be made on the way are
implied. -/
def place? (joined : Bool) (kind : HeaderKind) (content : Tree) (tree : Tree) :
    (key : List String) → Option Tree
  | [] => none
  | [part] => (open? kind content (tree.lookup part)).map (tree.put part)
  | part :: next :: parts =>
      match tree.lookup part with
      | none =>
          (place? joined kind content [] (next :: parts)).map fun below =>
            tree.put part (.table (.implied joined) below)
      | some (.table standing entries) =>
          (place? joined kind content entries (next :: parts)).map fun below =>
            tree.put part (.table standing below)
      | some (.array finished last) =>
          (place? joined kind content last (next :: parts)).map fun below =>
            tree.put part (.array finished below)
      | some (.value _) => none

end Tree

end CommentOutline.Toml
