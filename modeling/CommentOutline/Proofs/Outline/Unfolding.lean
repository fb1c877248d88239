import Mathlib.Order.WellFounded
import CommentOutline.Outline.Rendering
import CommentOutline.Proofs.Outline.History

set_option autoImplicit false

/-! Outlines come to an end. One cell may stand below several others, so a store is a graph; but
along its edges keys grow, so there is no way back. Every cell unfolds to a finite node, and a walk
that takes the children from the store while it visits them has visited them all at some time. -/

namespace CommentOutline.Outline

open List (Forall₂)
open Relation (ReflTransGen TransGen)

def ChildOf (cells : List Cell) (child parent : Nat) : Prop :=
  ∃ cell, cells[parent]? = some cell ∧ child ∈ cell.children

theorem Grows.wellFounded {cells : List Cell} (grows : Grows cells) :
    WellFounded (ChildOf cells) := by
  constructor
  intro id
  induction id using grows.induction with
  | step id below =>
      constructor
      intro child isChild
      obtain ⟨cell, present, inside⟩ := isChild
      exact below cell present child inside

/-- A cell unfolds to a node if it has the label, the line and the key of the node and its children
unfold to those of the node. Cells on a cycle unfold to nothing. -/
inductive Unfolds (cells : List Cell) : Nat → Node → Prop
  | node {id : Nat} {cell : Cell} {children : List Node} : cells[id]? = some cell →
      Forall₂ (Unfolds cells) cell.children children →
      Unfolds cells id ⟨cell.label, cell.line, cell.key, children⟩

/-- A walk under way: the cells that are still to be visited, with their depths, and the rows of
those that have been. -/
structure Tour where
  ahead : List (Nat × Nat)
  seen : List (Nat × Brief)
deriving Repr, DecidableEq

/-- The next cell is visited, and its children are visited before all others. -/
def Tour.visit? (cells : List Cell) : Tour → Option Tour
  | ⟨[], _⟩ => none
  | ⟨(depth, id) :: rest, seen⟩ => cells[id]?.map fun cell =>
      ⟨cell.children.map (fun child => (depth + 1, child)) ++ rest, seen ++ [(depth, cell.brief)]⟩

/-- One walk goes on to the other, visit by visit. -/
def Tour.Leads (cells : List Cell) : Tour → Tour → Prop :=
  ReflTransGen fun tour next => tour.visit? cells = some next

mutual

theorem map_leveled : (depth : Nat) → (node : Node) → (leveled depth node).map Prod.snd = walk node
  | depth, ⟨label, line, key, children⟩ => by
      rw [leveled, walk, List.map_cons, map_leveledAll (depth + 1) children]

theorem map_leveledAll : (depth : Nat) → (forest : List Node) →
    (leveledAll depth forest).map Prod.snd = walkAll forest
  | _, [] => rfl
  | depth, node :: nodes => by
      rw [leveledAll, walkAll, List.map_append, map_leveled depth node,
        map_leveledAll depth nodes]

end

namespace Builder

variable {builder : Builder}

theorem view_cons_of_nodeAt? (grows : Grows builder.cells) {id : Nat} {node : Node}
    (shown : builder.nodeAt? id = some node) (ids : List Nat) :
    builder.view (id :: ids) = node :: builder.view ids := by
  rw [view_eq_filterMap builder grows, view_eq_filterMap builder grows,
    List.filterMap_cons_some shown]

theorem forall₂_view (grows : Grows builder.cells) {relation : Nat → Node → Prop} (ids : List Nat)
    (related : ∀ id ∈ ids, ∃ node, builder.nodeAt? id = some node ∧ relation id node) :
    Forall₂ relation ids (builder.view ids) := by
  induction ids with
  | nil =>
      rw [view_eq_filterMap builder grows]
      exact .nil
  | cons id ids ih =>
      obtain ⟨node, shown, first⟩ := related id List.mem_cons_self
      rw [view_cons_of_nodeAt? grows shown]
      exact .cons first (ih fun other inside => related other (List.mem_cons_of_mem _ inside))

theorem exists_unfolds (grows : Grows builder.cells) (id : Nat) :
    id < builder.cells.length →
      ∃ node, builder.nodeAt? id = some node ∧ Unfolds builder.cells id node := by
  induction id using grows.induction with
  | step id below =>
      intro bound
      have present := List.getElem?_eq_getElem bound
      refine ⟨_, nodeAt?_of_cell builder present, .node present (forall₂_view grows _ ?_)⟩
      intro child inside
      obtain ⟨under, there, -⟩ := grows id _ present child inside
      exact below _ present child inside (List.getElem?_eq_some_iff.mp there).1

/-- Cells that stand ahead one after the other are visited with all that is below them, if each of
them is. -/
theorem leads_all (grows : Grows builder.cells) (depth : Nat) (ids : List Nat)
    (each : ∀ id ∈ ids, ∃ node, builder.nodeAt? id = some node ∧
      ∀ rest seen, Tour.Leads builder.cells ⟨(depth, id) :: rest, seen⟩
        ⟨rest, seen ++ leveled depth node⟩)
    (rest : List (Nat × Nat)) (seen : List (Nat × Brief)) :
    Tour.Leads builder.cells ⟨ids.map (fun id => (depth, id)) ++ rest, seen⟩
      ⟨rest, seen ++ leveledAll depth (builder.view ids)⟩ := by
  induction ids generalizing seen with
  | nil =>
      rw [view_eq_filterMap builder grows, List.filterMap_nil, leveledAll, List.append_nil]
      exact .refl
  | cons id ids ih =>
      obtain ⟨node, shown, visited⟩ := each id List.mem_cons_self
      have later := ih (fun other inside => each other (List.mem_cons_of_mem _ inside))
        (seen ++ leveled depth node)
      rw [view_cons_of_nodeAt? grows shown, leveledAll, ← List.append_assoc]
      exact (visited _ seen).trans later

theorem leads_of_nodeAt? (grows : Grows builder.cells) (id : Nat) :
    ∀ (node : Node) (depth : Nat), builder.nodeAt? id = some node →
      ∀ rest seen, Tour.Leads builder.cells ⟨(depth, id) :: rest, seen⟩
        ⟨rest, seen ++ leveled depth node⟩ := by
  -- by the cells below: a shared cell is visited once for each way that leads to it
  induction id using grows.induction with
  | step id below =>
      intro node depth shown rest seen
      obtain ⟨cell, present, rfl⟩ := Option.map_eq_some_iff.mp shown
      have visit : Tour.visit? builder.cells ⟨(depth, id) :: rest, seen⟩ =
          some ⟨cell.children.map (fun child => (depth + 1, child)) ++ rest,
            seen ++ [(depth, cell.brief)]⟩ := by
        rw [Tour.visit?, present, Option.map_some]
      have children := leads_all grows (depth + 1) cell.children (by
        intro child inside
        obtain ⟨under, there, -⟩ := grows id cell present child inside
        exact ⟨_, nodeAt?_of_cell builder there,
          below cell present child inside _ _ (nodeAt?_of_cell builder there)⟩)
        rest (seen ++ [(depth, cell.brief)])
      rw [List.append_assoc] at children
      rw [leveled]
      exact .head visit children

/-- All that a builder holds comes to an end: from no cell a way leads back to it or goes on for
ever, the outline and the groups that are found are finite, and so is a walk over them. The rows of
the walk are what the outline is rendered from. -/
structure Ends (builder : Builder) : Prop where
  noCycle : ∀ id, ¬ TransGen (ChildOf builder.cells) id id
  noEndlessWay : WellFounded (ChildOf builder.cells)
  forest : Forall₂ (Unfolds builder.cells) builder.roots builder.forest
  walk : ∃ rows, Tour.Leads builder.cells ⟨builder.roots.map fun id => (0, id), []⟩ ⟨[], rows⟩ ∧
    rows = leveledAll 0 builder.forest ∧ rows.map Prod.snd = walkAll builder.forest
  group : ∀ key id, builder.containers.lookup key = some id →
    ∃ node, builder.findContainer? key = some node ∧ node.key = key ∧
      Unfolds builder.cells id node ∧
      Tour.Leads builder.cells ⟨[(0, id)], []⟩ ⟨[], leveled 0 node⟩

theorem Sound.ends (sound : builder.Sound) : builder.Ends where
  noCycle := by
    intro id cycle
    exact sound.grows.wellFounded.transGen.irrefl.irrefl id cycle
  noEndlessWay := sound.grows.wellFounded
  forest := by
    apply forall₂_view sound.grows
    intro id inside
    exact exists_unfolds sound.grows id (sound.roots _ List.mem_concat_self id inside)
  walk := by
    have visited := leads_all sound.grows 0 builder.roots (by
      intro id inside
      have bound := sound.roots _ List.mem_concat_self id inside
      obtain ⟨node, shown, -⟩ := exists_unfolds sound.grows id bound
      exact ⟨node, shown, leads_of_nodeAt? sound.grows id node 0 shown⟩) [] []
    rw [List.append_nil] at visited
    exact ⟨_, visited, rfl, map_leveledAll 0 _⟩
  group := by
    intro key id found
    obtain ⟨cell, present, sameKey⟩ := sound.index key id found
    obtain ⟨node, shown, unfolds⟩ :=
      exists_unfolds sound.grows id (List.getElem?_eq_some_iff.mp present).1
    refine ⟨node, ?_, ?_, unfolds, leads_of_nodeAt? sound.grows id node 0 shown [] []⟩
    · rw [findContainer?, found, Option.bind_some, view_cons_of_nodeAt? sound.grows shown]
      rfl
    · rw [nodeAt?_of_cell builder present, Option.some.injEq] at shown
      rw [← shown, ← sameKey]

/-- Whatever separators labels are cut at and however keys meet, operations that fit succeed, and
after any number of them all that the builder holds comes to an end. -/
theorem perform_succeeds_and_ends (separator : Separator) (operations : List Operation)
    (cuts : separator.Cuts) (fits : ∀ operation ∈ operations, operation.Fits) :
    (∀ operation, operation.Fits →
        (((start separator).after operations).perform operation).2 = none) ∧
      ((start separator).after operations).Ends := by
  have sound := (sound_start separator).after operations
  have cutting := (sound_start separator).cuts_after cuts fits
  exact ⟨fun operation fit => (sound.perform_fits cutting fit).1, sound.ends⟩

/-- The group `A :: A` stands at the top and below the group `A` at once. -/
theorem perform_succeeds_and_ends_shared : (Separator.token "/").Cuts ∧
    (∀ operation ∈ [.addPath ["A :: A"] 1, .add "A/A/x" 2, .add "A :: A/y" 3],
      Operation.Fits operation) ∧
    (∀ operation, operation.Fits →
        (((start (.token "/")).after
          [.addPath ["A :: A"] 1, .add "A/A/x" 2, .add "A :: A/y" 3]).perform operation).2 =
            none) ∧
      ((start (.token "/")).after
        [.addPath ["A :: A"] 1, .add "A/A/x" 2, .add "A :: A/y" 3]).Ends := by
  have cuts : (Separator.token "/").Cuts := by
    show ("/" : String) ≠ ""
    decide
  have fits : ∀ operation ∈ [.addPath ["A :: A"] 1, .add "A/A/x" 2, .add "A :: A/y" 3],
      Operation.Fits operation := by
    simp [Operation.Fits]
  exact ⟨cuts, fits, perform_succeeds_and_ends _ _ cuts fits⟩

end Builder

end CommentOutline.Outline
