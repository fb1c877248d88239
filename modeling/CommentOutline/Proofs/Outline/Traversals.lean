import CommentOutline.Proofs.Comment.Scanning
import CommentOutline.Proofs.Config.Tables
import CommentOutline.Proofs.Html.Tags
import CommentOutline.Proofs.Outline.Exchange
import CommentOutline.Proofs.Outline.Legible

set_option autoImplicit false

/-! The ways through an outline. A node has an address, the places that lead to it from the roots,
and every way through an outline takes the nodes in the order of their addresses: the walk, the rows
of a rendering, the outline as data read from the outside in, and the items of a page. A row stands
as deep as its address is long. -/

namespace CommentOutline.Outline

open Config (Value)

/-! ### Addresses -/

mutual

/-- A node and all below it, each with its address. The number is the place of the node itself. -/
def addressedAt (place : Nat) : Node → List (List Nat × Node)
  | ⟨label, line, key, children⟩ =>
      ([place], ⟨label, line, key, children⟩) ::
        (addressedFrom 0 children).map fun spot => (place :: spot.1, spot.2)

def addressedFrom (place : Nat) : List Node → List (List Nat × Node)
  | [] => []
  | node :: nodes => addressedAt place node ++ addressedFrom (place + 1) nodes

end

def addressed (forest : List Node) : List (List Nat × Node) := addressedFrom 0 forest

theorem descend?_natCast (forest : List Node) (place : Nat) (address : List Nat) :
    descend? forest ((place :: address).map Nat.cast) =
      forest[place]?.bind fun node => node.descend? (address.map Nat.cast) := by
  rw [List.map_cons, descend?, itemAt?_natCast]

theorem Node.descend?_natCast (node : Node) (place : Nat) (address : List Nat) :
    node.descend? ((place :: address).map Nat.cast) =
      node.children[place]?.bind fun child => child.descend? (address.map Nat.cast) := by
  rw [List.map_cons, Node.descend?, itemAt?_natCast]

mutual

theorem mem_addressedAt_iff (place : Nat) (spot : List Nat × Node) : (node : Node) →
    (spot ∈ addressedAt place node ↔
      ∃ rest, spot.1 = place :: rest ∧ node.descend? (rest.map Nat.cast) = some spot.2)
  | ⟨label, line, key, children⟩ => by
      rw [addressedAt, List.mem_cons, List.mem_map]
      constructor
      · rintro (rfl | ⟨inner, below, rfl⟩)
        · exact ⟨[], rfl, rfl⟩
        · obtain ⟨n, rest, same, found⟩ := (mem_addressedFrom_iff 0 inner children).mp below
          refine ⟨inner.1, rfl, ?_⟩
          rw [same, Nat.zero_add, Node.descend?_natCast]
          exact found
      · rintro ⟨rest, same, found⟩
        cases rest with
        | nil => exact Or.inl (Prod.ext same (Option.some.inj found).symm)
        | cons n rest =>
            rw [Node.descend?_natCast] at found
            have below : (n :: rest, spot.2) ∈ addressedFrom 0 children :=
              (mem_addressedFrom_iff 0 _ children).mpr ⟨n, rest, by rw [Nat.zero_add], found⟩
            exact Or.inr ⟨_, below, Prod.ext same.symm rfl⟩

theorem mem_addressedFrom_iff (place : Nat) (spot : List Nat × Node) : (nodes : List Node) →
    (spot ∈ addressedFrom place nodes ↔ ∃ n rest, spot.1 = (place + n) :: rest ∧
      (nodes[n]?.bind fun node => node.descend? (rest.map Nat.cast)) = some spot.2)
  | [] => by
      refine iff_of_false (fun member => nomatch member) ?_
      rintro ⟨n, rest, -, found⟩
      cases found
  | node :: nodes => by
      rw [addressedFrom, List.mem_append, mem_addressedAt_iff place spot node,
        mem_addressedFrom_iff (place + 1) spot nodes]
      constructor
      · rintro (⟨rest, same, found⟩ | ⟨n, rest, same, found⟩)
        · exact ⟨0, rest, same, found⟩
        · exact ⟨n + 1, rest, by rw [same, Nat.add_assoc, Nat.add_comm 1], found⟩
      · rintro ⟨n, rest, same, found⟩
        cases n with
        | zero => exact Or.inl ⟨rest, same, found⟩
        | succ n => exact Or.inr ⟨n, rest, by rw [same, Nat.add_assoc, Nat.add_comm 1], found⟩

end

theorem mem_addressed_iff (forest : List Node) (address : List Nat) (node : Node) :
    (address, node) ∈ addressed forest ↔ descend? forest (address.map Nat.cast) = some node := by
  rw [addressed, mem_addressedFrom_iff]
  constructor
  · rintro ⟨n, rest, rfl, found⟩
    rw [Nat.zero_add, descend?_natCast]
    exact found
  · intro found
    cases address with
    | nil => cases found
    | cons n rest =>
        rw [descend?_natCast] at found
        exact ⟨n, rest, by rw [Nat.zero_add], found⟩

theorem address_ne_nil {place : Nat} {nodes : List Node} {spot : List Nat × Node}
    (member : spot ∈ addressedFrom place nodes) : spot.1 ≠ [] := by
  obtain ⟨n, rest, same, -⟩ := (mem_addressedFrom_iff place spot nodes).mp member
  rw [same]
  exact List.cons_ne_nil _ _

mutual

theorem addressedAt_ascending (place : Nat) : (node : Node) →
    ((addressedAt place node).map Prod.fst).Pairwise (· < ·)
  | ⟨label, line, key, children⟩ => by
      rw [addressedAt, List.map_cons, List.map_map, List.pairwise_cons]
      constructor
      · intro address inside
        obtain ⟨spot, below, rfl⟩ := List.mem_map.mp inside
        obtain ⟨n, rest, same⟩ := List.exists_cons_of_ne_nil (address_ne_nil below)
        rw [Function.comp_apply, same]
        exact List.cons_lt_cons_iff.mpr (Or.inr ⟨rfl, List.nil_lt_cons n rest⟩)
      · have below := addressedFrom_ascending 0 children
        rw [List.pairwise_map] at below ⊢
        exact below.imp fun lower => List.cons_lt_cons_iff.mpr (Or.inr ⟨rfl, lower⟩)

/-- Addresses are listed in their order: an address before those below it, and what is below a place
before the places behind it. -/
theorem addressedFrom_ascending (place : Nat) : (nodes : List Node) →
    ((addressedFrom place nodes).map Prod.fst).Pairwise (· < ·)
  | [] => List.Pairwise.nil
  | node :: nodes => by
      rw [addressedFrom, List.map_append, List.pairwise_append]
      refine ⟨addressedAt_ascending place node, addressedFrom_ascending (place + 1) nodes, ?_⟩
      intro address here address' behind
      obtain ⟨spot, inside, rfl⟩ := List.mem_map.mp here
      obtain ⟨spot', inside', rfl⟩ := List.mem_map.mp behind
      obtain ⟨rest, same, -⟩ := (mem_addressedAt_iff place spot node).mp inside
      obtain ⟨n, rest', same', -⟩ := (mem_addressedFrom_iff (place + 1) spot' nodes).mp inside'
      rw [same, same']
      exact List.cons_lt_cons_iff.mpr (Or.inl (by omega))

end

mutual

theorem leveled_eq_addressed (depth place : Nat) : (node : Node) →
    leveled depth node = (addressedAt place node).map fun spot =>
      (depth + (spot.1.length - 1), spot.2.brief)
  | ⟨label, line, key, children⟩ => by
      rw [leveled, addressedAt, List.map_cons, List.map_map,
        leveledAll_eq_addressed (depth + 1) 0 children]
      congr 1
      apply List.map_congr_left
      intro spot below
      have long := List.length_pos_of_ne_nil (address_ne_nil below)
      rw [Function.comp_apply, List.length_cons]
      congr 1
      omega

theorem leveledAll_eq_addressed (depth place : Nat) : (nodes : List Node) →
    leveledAll depth nodes = (addressedFrom place nodes).map fun spot =>
      (depth + (spot.1.length - 1), spot.2.brief)
  | [] => rfl
  | node :: nodes => by
      rw [leveledAll, addressedFrom, List.map_append, leveled_eq_addressed depth place node,
        leveledAll_eq_addressed depth (place + 1) nodes]

end

/-! ### Outlines as data -/

def briefOf? (entries : Config.Table) : Option Brief :=
  match entries.get? "label", entries.get? "line", entries.get? "key" with
  | some (.text label), some (.int line), some (.text key) => some ⟨label, line, key⟩
  | _, _, _ => none

mutual

/-- The nodes in a value from the outside in: a table that says what a node is comes before the
tables in its list of children, which stand one level deeper. -/
def rowsOf (depth : Nat) : Value → List (Nat × Brief)
  | .table entries =>
      ((briefOf? entries).map fun brief => (depth, brief)).toList ++ rowsUnder (depth + 1) entries
  | _ => []

def rowsUnder (depth : Nat) : List (String × Value) → List (Nat × Brief)
  | [] => []
  | (key, .list items) :: entries =>
      (if key = "children" then rowsAmong depth items else []) ++ rowsUnder depth entries
  | _ :: entries => rowsUnder depth entries

def rowsAmong (depth : Nat) : List Value → List (Nat × Brief)
  | [] => []
  | item :: items => rowsOf depth item ++ rowsAmong depth items

end

mutual

theorem rowsOf_toValue (depth : Nat) : (node : Node) →
    rowsOf depth (toValue node) = leveled depth node
  | ⟨label, line, key, children⟩ => by
      have told : briefOf? [("label", .text label), ("line", .int line), ("key", .text key),
          ("children", .list (toValues children))] = some ⟨label, line, key⟩ := rfl
      have below : rowsUnder (depth + 1) [("label", .text label), ("line", .int line),
          ("key", .text key), ("children", .list (toValues children))] =
            rowsAmong (depth + 1) (toValues children) := by
        simp only [rowsUnder, if_pos, List.append_nil]
      rw [toValue, rowsOf, told, below, leveled, rowsAmong_toValues (depth + 1) children]
      rfl

theorem rowsAmong_toValues (depth : Nat) : (nodes : List Node) →
    rowsAmong depth (toValues nodes) = leveledAll depth nodes
  | [] => rfl
  | node :: nodes => by
      rw [toValues, rowsAmong, leveledAll, rowsOf_toValue depth node,
        rowsAmong_toValues depth nodes]

end

/-! ### Lines and items -/

variable {bullet tag : List Char}

theorem Format.length_lines (format : Format bullet tag) {forest : List Node}
    (some_node : forest ≠ [])
    (oneLine : ∀ row ∈ leveledAll 0 forest, '\n' ∉ row.2.label.toList) :
    ((rendering bullet tag forest).toList.splitOn '\n').length = (leveledAll 0 forest).length := by
  have clear : ∀ line ∈ (leveledAll 0 forest).map fun row => written bullet tag row.1 row.2,
      '\n' ∉ line := by
    intro line inside
    obtain ⟨row, listed, rfl⟩ := List.mem_map.mp inside
    exact format.notMem_written row.1 (oneLine row listed)
  have some_line : ((leveledAll 0 forest).map fun row => written bullet tag row.1 row.2) ≠ [] := by
    cases forest with
    | nil => exact absurd rfl some_node
    | cons node nodes =>
        obtain ⟨label, line, key, children⟩ := node
        exact List.cons_ne_nil _ _
  rw [rendering, String.toList_ofList, splitOn_joinLines clear some_line, List.length_map]

end CommentOutline.Outline

namespace CommentOutline.Html

open Outline (Node walk walkAll)

def Tag.isItem (tag : Tag) : Bool := tag.name = "li"

mutual

theorem countP_itemTags : (node : Node) → (itemTags node).countP Tag.isItem = (walk node).length
  | ⟨label, line, key, []⟩ => rfl
  | ⟨label, line, key, child :: children⟩ => by
      have opening : ([itemTag key line.repr, ⟨"details", [⟨"open", .none⟩]⟩, ⟨"summary", []⟩] ++
          labelTags ++ [⟨"/summary", []⟩, listTag]).countP Tag.isItem = 1 := rfl
      have closing :
          [(⟨"/ul", []⟩ : Tag), ⟨"/details", []⟩, ⟨"/li", []⟩].countP Tag.isItem = 0 := rfl
      rw [itemTags, List.countP_append, List.countP_append, List.countP_append, opening, closing,
        countP_itemTags child, countP_itemsTags children, walk, walkAll, List.length_cons,
        List.length_append]
      omega

theorem countP_itemsTags : (nodes : List Node) →
    (itemsTags nodes).countP Tag.isItem = (walkAll nodes).length
  | [] => rfl
  | node :: nodes => by
      rw [itemsTags, walkAll, List.countP_append, List.length_append, countP_itemTags node,
        countP_itemsTags nodes]

end

theorem countP_pageTags (forest : List Node) :
    (pageTags forest).countP Tag.isItem = (walkAll forest).length := by
  have outline : (outlineTags forest).countP Tag.isItem = (walkAll forest).length := by
    cases forest with
    | nil => rfl
    | cons node nodes =>
        have framed : outlineTags (node :: nodes) =
            [listTag] ++ itemsTags (node :: nodes) ++ [⟨"/ul", []⟩] := rfl
        rw [framed, List.countP_append, List.countP_append, countP_itemsTags]
        exact Nat.zero_add _
  rw [pageTags, List.countP_append, List.countP_append, outline]
  exact Nat.zero_add _

end CommentOutline.Html

namespace CommentOutline.Outline

/-- The nodes of an outline, each with its depth, in the order of their addresses. -/
structure InAddressOrder (forest : List Node) (rows : List (Nat × Brief)) : Prop where
  ascending : ((addressed forest).map Prod.fst).Pairwise (· < ·)
  complete : ∀ address node, (address, node) ∈ addressed forest ↔
    descend? forest (address.map Nat.cast) = some node
  nested : rows = (addressed forest).map fun spot => (spot.1.length - 1, spot.2.brief)

theorem inAddressOrder_leveledAll (forest : List Node) :
    InAddressOrder forest (leveledAll 0 forest) where
  ascending := addressedFrom_ascending 0 forest
  complete := mem_addressed_iff forest
  nested := by
    rw [addressed, leveledAll_eq_addressed 0 0]
    simp only [Nat.zero_add]

theorem flatMap_walk (forest : List Node) : forest.flatMap walk = walkAll forest := by
  induction forest with
  | nil => rfl
  | cons node nodes ih => rw [List.flatMap_cons, walkAll, ih]

/-- All ways through an outline agree. The rows of a rendering are the nodes in the order of their
addresses, each as deep as its address is long; the walks of the roots pass the same nodes in the
same order, and so does a reader of the outline as data, who finds them at the same depths. There
are as many of them as the data say, as a rendering has lines, and as a page has items. -/
theorem traversals_agree (forest : List Node) (title version : String) :
    let rows := leveledAll 0 forest
    InAddressOrder forest rows ∧
      forest.flatMap walk = rows.map Prod.snd ∧
      (∃ items, (forestValue forest).at? ["roots"] = some (.list items) ∧
        rowsAmong 0 items = rows) ∧
      (forestValue forest).at? ["node_count"] = some (.int rows.length) ∧
      (forest ≠ [] → (∀ row ∈ rows, '\n' ∉ row.2.label.toList) →
        ((renderText forest).toList.splitOn '\n').length = rows.length ∧
          ((renderMarkdown forest).toList.splitOn '\n').length = rows.length) ∧
      (Html.tags (Html.render title version forest).toList).countP Html.Tag.isItem =
        rows.length := by
  intro rows
  have walked : rows.map Prod.snd = walkAll forest := map_leveledAll 0 forest
  have counted : rows.length = count forest := by
    rw [count, ← walked, List.length_map]
  refine ⟨inAddressOrder_leveledAll forest, ?_, ⟨_, rfl, rowsAmong_toValues 0 forest⟩, ?_, ?_, ?_⟩
  · rw [walked, flatMap_walk]
  · rw [counted]
    rfl
  · intro some_node oneLine
    rw [renderText_eq, renderMarkdown_eq]
    exact ⟨format_text.length_lines some_node oneLine,
      format_markdown.length_lines some_node oneLine⟩
  · rw [Html.tags_render, Html.countP_pageTags, counted, count]

/-- A group whose label reads like an item, and a root beside it. -/
theorem traversals_agree_hostile :
    let forest : List Node := [⟨"<li>", 4, "G", [⟨"x", 4, "G :: x", []⟩]⟩, ⟨"y\r", -1, "y", []⟩]
    forest ≠ [] ∧ (∀ row ∈ leveledAll 0 forest, '\n' ∉ row.2.label.toList) ∧
      ((renderText forest).toList.splitOn '\n').length = 3 ∧
      (addressed forest).map Prod.fst = [[0], [0, 0], [1]] := by
  intro forest
  have some_node : forest ≠ [] := List.cons_ne_nil _ _
  have oneLine : ∀ row ∈ leveledAll 0 forest, '\n' ∉ row.2.label.toList := by decide
  have agree := traversals_agree forest "" ""
  exact ⟨some_node, oneLine, (agree.2.2.2.2.1 some_node oneLine).1, rfl⟩

end CommentOutline.Outline
