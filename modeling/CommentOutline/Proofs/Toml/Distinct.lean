import Mathlib.Data.List.Basic
import CommentOutline.Proofs.Config.Tables
import CommentOutline.Toml.Document

set_option autoImplicit false

/-! TOML documents name every key once. A key that is there already is never made again: dotted keys
and headers go on below it or are refused. So the tables that a document writes have no key twice,
at any depth. -/

namespace CommentOutline.Toml

open Config (Value Table mem_of_lookup)

/-- Nodes in which no table has a key twice, at any depth. -/
inductive Node.KeyedOnce : Node → Prop
  | value {value : Value} : value.KeyedOnce → KeyedOnce (.value value)
  | table {standing : Standing} {entries : Tree} : (entries.map Prod.fst).Nodup →
      (∀ entry ∈ entries, KeyedOnce entry.2) → KeyedOnce (.table standing entries)
  | array {finished : List Value} {last : Tree} : (∀ item ∈ finished, item.KeyedOnce) →
      (last.map Prod.fst).Nodup → (∀ entry ∈ last, KeyedOnce entry.2) →
      KeyedOnce (.array finished last)

structure Tree.KeyedOnce (tree : Tree) : Prop where
  keys : (tree.map Prod.fst).Nodup
  each : ∀ entry ∈ tree, entry.2.KeyedOnce

variable {value : Value} {node : Node} {tree grown old content : Tree} {key : List String}

/-! ### Finished tables -/

theorem finishAll_eq_map (entries : Tree) :
    Node.finishAll entries = entries.map fun entry => (entry.1, entry.2.finish) := by
  induction entries with
  | nil => rfl
  | cons entry entries ih => rw [Node.finishAll, ih, List.map_cons]

theorem keyedOnce_finishAll {entries : Tree} (keys : (entries.map Prod.fst).Nodup)
    (each : ∀ entry ∈ entries, entry.2.finish.KeyedOnce) :
    (Value.table (Node.finishAll entries)).KeyedOnce := by
  rw [finishAll_eq_map]
  refine .table ?_ fun entry inside => ?_
  · rw [List.map_map]
    exact keys
  · obtain ⟨one, there, rfl⟩ := List.mem_map.mp inside
    exact each one there

theorem Node.KeyedOnce.finish (once : node.KeyedOnce) : node.finish.KeyedOnce := by
  induction once with
  | value once =>
      rw [Node.finish]
      exact once
  | table keys _ ih =>
      rw [Node.finish]
      exact keyedOnce_finishAll keys ih
  | array finished keys _ ih =>
      rw [Node.finish]
      refine .list (List.forall_mem_append.mpr ⟨finished, ?_⟩)
      exact List.forall_mem_singleton.mpr (keyedOnce_finishAll keys ih)

namespace Tree

theorem KeyedOnce.finish (once : tree.KeyedOnce) : (Value.table tree.finish).KeyedOnce :=
  keyedOnce_finishAll once.keys fun entry inside => (once.each entry inside).finish

/-! ### Growing trees -/

theorem keyedOnce_nil : KeyedOnce [] := ⟨List.nodup_nil, fun _ inside => nomatch inside⟩

theorem KeyedOnce.toTable (once : tree.KeyedOnce) (standing : Standing) :
    Node.KeyedOnce (.table standing tree) :=
  .table once.keys once.each

theorem KeyedOnce.of_table {standing : Standing} (once : Node.KeyedOnce (.table standing tree)) :
    tree.KeyedOnce := by
  cases once with
  | table keys each => exact ⟨keys, each⟩

theorem KeyedOnce.of_array {finished : List Value}
    (once : Node.KeyedOnce (.array finished tree)) :
    (∀ item ∈ finished, item.KeyedOnce) ∧ tree.KeyedOnce := by
  cases once with
  | array finished keys each => exact ⟨finished, keys, each⟩

theorem KeyedOnce.lookup (once : tree.KeyedOnce) {part : String}
    (found : tree.lookup part = some node) : node.KeyedOnce :=
  once.each _ (mem_of_lookup found)

theorem KeyedOnce.put (once : tree.KeyedOnce) (onceNode : node.KeyedOnce) (part : String) :
    (tree.put part node).KeyedOnce := by
  refine ⟨Config.nodup_keys_putEntry once.keys part node, fun entry inside => ?_⟩
  rcases Config.mem_putEntry inside with rfl | before
  · exact onceNode
  · exact once.each entry before

theorem KeyedOnce.concat (once : tree.KeyedOnce) (onceNode : node.KeyedOnce) {part : String}
    (new : tree.lookup part = none) : KeyedOnce (tree ++ [(part, node)]) := by
  have absent : part ∉ tree.map Prod.fst := Config.notMem_of_lookup new
  constructor
  · rw [List.map_append]
    refine List.nodup_append.mpr ⟨once.keys, List.nodup_singleton part, ?_⟩
    rintro name inside other alone rfl
    have same : name = part := List.mem_singleton.mp alone
    exact absent (same ▸ inside)
  · exact List.forall_mem_append.mpr ⟨once.each, List.forall_mem_singleton.mpr onceNode⟩

theorem keyedOnce_branch (once : value.KeyedOnce) (key : List String) :
    (branch value key).KeyedOnce := by
  induction key with
  | nil => exact .value once
  | cons part parts ih =>
      exact .table (List.nodup_singleton part) (List.forall_mem_singleton.mpr ih)

theorem KeyedOnce.insert? (once : tree.KeyedOnce) (onceValue : value.KeyedOnce)
    (inserted : Tree.insert? value tree key = some grown) : grown.KeyedOnce := by
  fun_induction Tree.insert? value tree key generalizing grown with
  | case1 => cases inserted
  | case2 tree part parts new =>
      cases inserted
      exact once.concat (keyedOnce_branch onceValue parts) new
  | case3 tree part standing entries next others found ih =>
      obtain ⟨below, inside, rfl⟩ := Option.map_eq_some_iff.mp inserted
      have onceBelow := ih (.of_table (once.lookup found)) inside
      exact once.put (onceBelow.toTable standing) part
  | case4 => cases inserted

theorem keeps_foldlM {α β : Type} {motive : α → Prop} {step : α → β → Option α} {items : List β}
    (keeps : ∀ item ∈ items, ∀ before after,
      motive before → step before item = some after → motive after)
    {before after : α} (first : motive before)
    (run : items.foldlM step before = some after) : motive after := by
  induction items generalizing before with
  | nil =>
      rw [List.foldlM_nil] at run
      cases run
      exact first
  | cons item items ih =>
      rw [List.foldlM_cons] at run
      obtain ⟨next, here, later⟩ := Option.bind_eq_some_iff.mp run
      exact ih (fun other inside => keeps other (List.mem_cons_of_mem _ inside))
        (keeps item List.mem_cons_self before next first here) later

theorem keyedOnce_ofEntries? {entries : List (List String × Value)}
    (each : ∀ entry ∈ entries, entry.2.KeyedOnce) (made : ofEntries? entries = some tree) :
    tree.KeyedOnce :=
  keeps_foldlM (fun entry inside _ _ once inserted => once.insert? (each entry inside) inserted)
    keyedOnce_nil made

mutual

theorem keyedOnce_graftNode? : (node : Node) → (old : Option Node) → {grown : Node} →
    node.KeyedOnce → (∀ held ∈ old, held.KeyedOnce) → graftNode? node old = some grown →
    grown.KeyedOnce
  | node, none, _, once, _, grafted => by
      rw [graftNode?] at grafted
      cases grafted
      exact once
  | .table _ entries, some (.table (.implied _) before), _, once, onceOld, grafted => by
      rw [graftNode?] at grafted
      obtain ⟨grown, inside, rfl⟩ := Option.map_eq_some_iff.mp grafted
      have onceEntries := KeyedOnce.of_table once
      have onceBefore := KeyedOnce.of_table (onceOld _ rfl)
      exact (keyedOnce_graftAll? entries before onceEntries.each onceBefore inside).toTable _
  | .table _ _, some (.table .settled _), _, _, _, grafted => by cases grafted
  | .table _ _, some (.value _), _, _, _, grafted => by cases grafted
  | .table _ _, some (.array _ _), _, _, _, grafted => by cases grafted
  | .value _, some held, _, _, _, grafted => by
      rcases held with _ | ⟨_ | _, _⟩ | _ <;> cases grafted
  | .array _ _, some held, _, _, _, grafted => by
      rcases held with _ | ⟨_ | _, _⟩ | _ <;> cases grafted

theorem keyedOnce_graftAll? : (entries old : Tree) → {grown : Tree} →
    (∀ entry ∈ entries, entry.2.KeyedOnce) → old.KeyedOnce → graftAll? entries old = some grown →
    grown.KeyedOnce
  | [], old, _, _, onceOld, grafted => by
      cases grafted
      exact onceOld
  | (part, node) :: entries, old, _, each, onceOld, grafted => by
      rw [graftAll?] at grafted
      split at grafted
      · rename_i grown inside
        have here := keyedOnce_graftNode? node (old.lookup part) (each _ List.mem_cons_self)
          (fun held found => onceOld.lookup found) inside
        exact keyedOnce_graftAll? entries (old.put part grown)
          (fun entry behind => each entry (List.mem_cons_of_mem _ behind)) (onceOld.put here part)
          grafted
      · cases grafted

end

theorem keyedOnce_open? {kind : HeaderKind} {old : Option Node} (once : content.KeyedOnce)
    (onceOld : ∀ held ∈ old, held.KeyedOnce) (opened : open? kind content old = some node) :
    node.KeyedOnce := by
  unfold open? at opened
  split at opened
  · cases opened
    exact once.toTable .settled
  · obtain ⟨grown, inside, rfl⟩ := Option.map_eq_some_iff.mp opened
    have onceBefore := KeyedOnce.of_table (onceOld _ rfl)
    exact (keyedOnce_graftAll? _ _ once.each onceBefore inside).toTable .settled
  · cases opened
    exact .array (fun _ inside => nomatch inside) once.keys once.each
  · cases opened
    obtain ⟨finished, last⟩ := KeyedOnce.of_array (onceOld _ rfl)
    refine .array (List.forall_mem_append.mpr ⟨finished, ?_⟩) once.keys once.each
    exact List.forall_mem_singleton.mpr last.finish
  · cases opened

theorem KeyedOnce.place? {joined : Bool} {kind : HeaderKind} (once : tree.KeyedOnce)
    (onceContent : content.KeyedOnce)
    (placed : Tree.place? joined kind content tree key = some grown) : grown.KeyedOnce := by
  fun_induction Tree.place? joined kind content tree key generalizing grown with
  | case1 => cases placed
  | case2 tree part =>
      obtain ⟨node, opened, rfl⟩ := Option.map_eq_some_iff.mp placed
      exact once.put (keyedOnce_open? onceContent (fun held found => once.lookup found) opened) part
  | case3 tree part next parts new ih =>
      obtain ⟨below, inside, rfl⟩ := Option.map_eq_some_iff.mp placed
      exact once.put ((ih keyedOnce_nil inside).toTable _) part
  | case4 tree part next parts standing entries found ih =>
      obtain ⟨below, inside, rfl⟩ := Option.map_eq_some_iff.mp placed
      exact once.put ((ih (.of_table (once.lookup found)) inside).toTable standing) part
  | case5 tree part next parts finished last found ih =>
      obtain ⟨below, inside, rfl⟩ := Option.map_eq_some_iff.mp placed
      obtain ⟨onceFinished, onceLast⟩ := KeyedOnce.of_array (once.lookup found)
      have onceBelow := ih onceLast inside
      exact once.put (.array onceFinished onceBelow.keys onceBelow.each) part
  | case6 => cases placed

end Tree

/-! ### Values that are read -/

variable {cs : List Char}

theorem keyedOnce_digits? (read : digits? cs = some value) : value.KeyedOnce := by
  unfold digits? at read
  obtain ⟨-, read⟩ := Option.ite_none_left_eq_some.mp read
  obtain ⟨-, read⟩ := Option.ite_none_left_eq_some.mp read
  dsimp only at read
  split at read
  · cases read
    exact .int _
  · obtain ⟨float, -, rfl⟩ := Option.map_eq_some_iff.mp read
    exact .float float

theorem keyedOnce_number? (read : number? cs = some value) : value.KeyedOnce := by
  unfold number? at read
  split at read
  · cases read
    exact .float _
  · exact keyedOnce_digits? read

theorem keyedOnce_afterDate? {date : Config.Date} {raw : List Char}
    {read : Value × List Char} (found : afterDate? date raw cs = some read) :
    read.1.KeyedOnce := by
  unfold afterDate? at found
  dsimp only at found
  split at found
  · cases found
    exact .moment _
  · obtain ⟨moment, -, rfl⟩ := Option.map_eq_some_iff.mp found
    exact .moment moment

theorem keyedOnce_readNumber? {read : Value × List Char} (found : readNumber? cs = some read) :
    read.1.KeyedOnce := by
  unfold readNumber? at found
  dsimp only at found
  split at found
  · exact keyedOnce_afterDate? found
  · cases found
    exact .moment _
  · cases found
    exact .moment _
  · obtain ⟨number, here, rfl⟩ := Option.map_eq_some_iff.mp found
    exact keyedOnce_number? here

mutual

/-- The readers of values, by the fuel that is left. -/
theorem keyedOnce_readValue? : (fuel depth : Nat) → {cs : List Char} → {read : Value × List Char} →
    readValue? fuel depth cs = some read → read.1.KeyedOnce
  | 0, _, _, _, found => by
      rw [readValue?] at found
      cases found
  | fuel + 1, depth, cs, read, found => by
      unfold readValue? at found
      split at found
      · obtain ⟨text, -, rfl⟩ := Option.map_eq_some_iff.mp found
        exact .text _
      · obtain ⟨text, -, rfl⟩ := Option.map_eq_some_iff.mp found
        exact .text _
      · cases found
        exact .bool true
      · cases found
        exact .bool false
      · cases depth with
        | zero => cases found
        | succ depth =>
            obtain ⟨items, inside, rfl⟩ := Option.map_eq_some_iff.mp found
            exact .list (keyedOnce_readItems? fuel depth inside)
      · cases depth with
        | zero => cases found
        | succ depth =>
            obtain ⟨entries, inside, made⟩ := Option.bind_eq_some_iff.mp found
            obtain ⟨tree, grown, rfl⟩ := Option.map_eq_some_iff.mp made
            have each := keyedOnce_readEntries? fuel depth inside
            exact (Tree.keyedOnce_ofEntries? each grown).finish
      · split at found
        · exact keyedOnce_readNumber? found
        · cases found

theorem keyedOnce_readItems? : (fuel depth : Nat) → {cs : List Char} →
    {read : List Value × List Char} → readItems? fuel depth cs = some read →
    ∀ item ∈ read.1, item.KeyedOnce
  | 0, _, _, _, found => by
      rw [readItems?] at found
      cases found
  | fuel + 1, depth, cs, read, found => by
      unfold readItems? at found
      split at found
      · cases found
        exact List.forall_mem_nil _
      · obtain ⟨first, here, found⟩ := Option.bind_eq_some_iff.mp found
        have once := keyedOnce_readValue? fuel depth here
        obtain ⟨front, -, found⟩ := Option.bind_eq_some_iff.mp found
        split at found
        · obtain ⟨more, later, found⟩ := Option.bind_eq_some_iff.mp found
          cases found
          exact List.forall_mem_cons.mpr ⟨once, keyedOnce_readItems? fuel depth later⟩
        · cases found
          exact List.forall_mem_singleton.mpr once
        · cases found
      · cases found

theorem keyedOnce_readEntries? : (fuel depth : Nat) → {cs : List Char} →
    {read : List (List String × Value) × List Char} → readEntries? fuel depth cs = some read →
    ∀ entry ∈ read.1, entry.2.KeyedOnce
  | 0, _, _, _, found => by
      rw [readEntries?] at found
      cases found
  | fuel + 1, depth, cs, read, found => by
      unfold readEntries? at found
      split at found
      · cases found
        exact List.forall_mem_nil _
      · obtain ⟨first, here, found⟩ := Option.bind_eq_some_iff.mp found
        have once := keyedOnce_readPair? fuel depth here
        obtain ⟨front, -, found⟩ := Option.bind_eq_some_iff.mp found
        split at found
        · obtain ⟨more, later, found⟩ := Option.bind_eq_some_iff.mp found
          cases found
          exact List.forall_mem_cons.mpr ⟨once, keyedOnce_readEntries? fuel depth later⟩
        · cases found
          exact List.forall_mem_singleton.mpr once
        · cases found
      · cases found

theorem keyedOnce_readPair? : (fuel depth : Nat) → {cs : List Char} →
    {read : (List String × Value) × List Char} → readPair? fuel depth cs = some read →
    read.1.2.KeyedOnce
  | 0, _, _, _, found => by
      rw [readPair?] at found
      cases found
  | fuel + 1, depth, cs, read, found => by
      unfold readPair? at found
      obtain ⟨key, -, found⟩ := Option.bind_eq_some_iff.mp found
      obtain ⟨front, -, found⟩ := Option.bind_eq_some_iff.mp found
      obtain ⟨value, here, found⟩ := Option.bind_eq_some_iff.mp found
      cases found
      exact keyedOnce_readValue? fuel depth here

end

/-! ### Documents -/

/-- An entry brings a value without repeated keys; a header brings none. -/
def Statement.KeyedOnce : Statement → Prop
  | .entry _ value => value.KeyedOnce
  | .header _ => True

theorem keyedOnce_statement? {read : Statement × List Char} (found : statement? cs = some read) :
    read.1.KeyedOnce := by
  unfold statement? at found
  split at found
  · obtain ⟨header, -, rfl⟩ := Option.map_eq_some_iff.mp found
    trivial
  · obtain ⟨pair, here, rfl⟩ := Option.map_eq_some_iff.mp found
    exact keyedOnce_readPair? _ _ here

theorem keyedOnce_statements? : (fuel : Nat) → {cs : List Char} → {found : List Statement} →
    statements? fuel cs = some found → ∀ statement ∈ found, statement.KeyedOnce
  | 0, _, _, read => by cases read
  | fuel + 1, cs, found, read => by
      unfold statements? at read
      split at read
      · cases read
        exact List.forall_mem_nil _
      · split at read
        · exact keyedOnce_statements? fuel read
        · obtain ⟨first, here, read⟩ := Option.bind_eq_some_iff.mp read
          obtain ⟨behind, -, read⟩ := Option.bind_eq_some_iff.mp read
          obtain ⟨more, later, read⟩ := Option.bind_eq_some_iff.mp read
          cases read
          exact List.forall_mem_cons.mpr
            ⟨keyedOnce_statement? here, keyedOnce_statements? fuel later⟩

theorem keyedOnce_sections {found : List Statement}
    (each : ∀ statement ∈ found, statement.KeyedOnce) :
    (∀ entry ∈ (sections found).1, entry.2.KeyedOnce) ∧
      ∀ one ∈ (sections found).2, ∀ entry ∈ one.entries, entry.2.KeyedOnce := by
  induction found with
  | nil => exact ⟨List.forall_mem_nil _, List.forall_mem_nil _⟩
  | cons statement found ih =>
      obtain ⟨here, behind⟩ := List.forall_mem_cons.mp each
      obtain ⟨entries, more⟩ := ih behind
      cases statement with
      | entry key value => exact ⟨List.forall_mem_cons.mpr ⟨here, entries⟩, more⟩
      | header header => exact ⟨List.forall_mem_nil _, List.forall_mem_cons.mpr ⟨entries, more⟩⟩

theorem Draft.keyedOnce_start? {entries : List (List String × Value)} {draft : Draft}
    (each : ∀ entry ∈ entries, entry.2.KeyedOnce) (started : Draft.start? entries = some draft) :
    draft.tree.KeyedOnce := by
  obtain ⟨tree, made, rfl⟩ := Option.map_eq_some_iff.mp started
  exact Tree.keyedOnce_ofEntries? each made

theorem Draft.keyedOnce_add? {found : Section} {draft after : Draft}
    (each : ∀ entry ∈ found.entries, entry.2.KeyedOnce) (once : draft.tree.KeyedOnce)
    (added : draft.add? found = some after) : after.tree.KeyedOnce := by
  have reach_tree : (draft.reach found.header).tree = draft.tree := by
    unfold Draft.reach
    split <;> rfl
  unfold Draft.add? at added
  dsimp only at added
  split at added
  · cases added
    exact once
  · split at added
    · cases added
      exact reach_tree ▸ once
    · obtain ⟨content, made, added⟩ := Option.bind_eq_some_iff.mp added
      obtain ⟨tree, placed, added⟩ := Option.bind_eq_some_iff.mp added
      cases added
      exact once.place? (Tree.keyedOnce_ofEntries? each made) placed

theorem read?_keyedOnce {text : String} {table : Table} (read : read? text = some table) :
    (Value.table table).KeyedOnce := by
  obtain ⟨found, stated, read⟩ := Option.bind_eq_some_iff.mp read
  obtain ⟨entries, more⟩ := keyedOnce_sections (keyedOnce_statements? _ stated)
  obtain ⟨first, started, read⟩ := Option.bind_eq_some_iff.mp read
  obtain ⟨draft, run, read⟩ := Option.bind_eq_some_iff.mp read
  cases read
  have keeps : ∀ one ∈ _, ∀ before after : Draft, before.tree.KeyedOnce →
      before.add? one = some after → after.tree.KeyedOnce :=
    fun one inside _ _ once added => Draft.keyedOnce_add? (more one inside) once added
  exact (Tree.keeps_foldlM keeps (Draft.keyedOnce_start? entries started) run).finish

end CommentOutline.Toml
