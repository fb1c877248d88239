import CommentOutline.Proofs.Outline.Agreement
import CommentOutline.Proofs.Outline.Visibility

set_option autoImplicit false

/-! Outlines in the order of the document. If annotations come in the order of their lines, so do
the nodes side by side at every level, and a group stands on the line of its first child, before
all else that is in it. -/

namespace CommentOutline.Outline

open Route

def LinesGrow (nodes : List Node) : Prop :=
  nodes.Pairwise fun first second => first.line < second.line

/-- The node stands on the line of its first child, and nothing in it stands on an earlier one. -/
structure Node.Heads (node : Node) : Prop where
  first : node.children.head?.map Node.line = some node.line
  least : ∀ inside ∈ visits node, node.line ≤ inside.line

/-- Lines grow at every level, and every node with children heads what is in it. -/
structure InDocumentOrder (forest : List Node) : Prop where
  roots : LinesGrow forest
  children : ∀ node ∈ visitsAll forest, LinesGrow node.children
  groups : ∀ node ∈ visitsAll forest, node.children ≠ [] → node.Heads

/-! ### Lines of routes -/

def Route.lines (routes : List Route) : List Int := routes.map Route.line

theorem lines_joining_sublist (label : String) (routes : List Route) :
    (lines (joining label routes)).Sublist (lines routes) := by
  induction routes with
  | nil => exact .slnil
  | cons route routes ih =>
      rw [joining, List.filterMap_cons]
      cases goes : route.after? label with
      | none => exact ih.cons _
      | some left =>
          rw [lines, lines, List.map_cons, List.map_cons,
            ((after?_eq_some_iff label route left).mp goes).2.2]
          exact ih.cons_cons _

theorem lines_passing_sublist (label : String) (routes : List Route) :
    (lines (passing label routes)).Sublist (lines routes) :=
  List.filter_sublist.map Route.line

theorem lines_group_sublist (label next : String) (rest : List String) (line : Int)
    (routes : List Route) :
    (lines (⟨next :: rest, line⟩ :: joining label routes)).Sublist
      (lines (⟨label :: next :: rest, line⟩ :: routes)) :=
  (lines_joining_sublist label routes).cons_cons line

/-! ### Lines in a grouped forest -/

/-- Side by side, nodes stand on the lines of different routes, in the order of these. -/
theorem map_line_groupBelow_sublist (path : List String) (routes : List Route) :
    ((groupBelow path routes).map Node.line).Sublist (lines routes) := by
  fun_induction groupBelow path routes with
  | case1 path => exact .slnil
  | case2 path line routes ih => exact ih.cons _
  | case3 path label line routes ih => exact ih.cons_cons line
  | case4 path label next rest line routes ihBelow ihRest =>
      exact (ihRest.trans (lines_passing_sublist label routes)).cons_cons line

theorem linesGrow_groupBelow (path : List String) {routes : List Route}
    (growing : (lines routes).Pairwise (· < ·)) : LinesGrow (groupBelow path routes) :=
  List.pairwise_map.mp (growing.sublist (map_line_groupBelow_sublist path routes))

theorem line_head?_groupBelow (path : List String) (next : String) (rest : List String) (line : Int)
    (routes : List Route) :
    (groupBelow path (⟨next :: rest, line⟩ :: routes)).head?.map Node.line = some line := by
  cases rest <;> rw [groupBelow] <;> rfl

theorem line_mem_of_visited (path : List String) (routes : List Route) (node : Node)
    (visited : node ∈ visitsAll (groupBelow path routes)) : node.line ∈ lines routes := by
  fun_induction groupBelow path routes with
  | case1 path => cases visited
  | case2 path line routes ih => exact List.mem_cons_of_mem _ (ih visited)
  | case3 path label line routes ih =>
      rw [mem_visitsAll_cons] at visited
      rcases visited with rfl | none | later
      · exact List.mem_cons_self
      · cases none
      · exact List.mem_cons_of_mem _ (ih later)
  | case4 path label next rest line routes ihBelow ihRest =>
      rw [mem_visitsAll_cons] at visited
      rcases visited with rfl | below | later
      · exact List.mem_cons_self
      · exact (lines_group_sublist label next rest line routes).subset (ihBelow below)
      · exact List.mem_cons_of_mem _
          ((lines_passing_sublist label routes).subset (ihRest later))

/-- All that a group is made of comes after its first route, so it heads what is in it. -/
theorem heads_group (path : List String) (label next : String) (rest : List String) (line : Int)
    (routes : List Route)
    (growing : (lines (⟨next :: rest, line⟩ :: joining label routes)).Pairwise (· < ·)) :
    Node.Heads ⟨label, line, pathKey (path ++ [label]),
      groupBelow (path ++ [label]) (⟨next :: rest, line⟩ :: joining label routes)⟩ where
  first := line_head?_groupBelow _ next rest line _
  least := by
    intro inside visited
    rw [visits, List.mem_cons] at visited
    rcases visited with rfl | below
    · exact Int.le_refl line
    · rcases List.mem_cons.mp (line_mem_of_visited _ _ inside below) with same | later
      · exact Int.le_of_eq same.symm
      · exact Int.le_of_lt (List.rel_of_pairwise_cons growing later)

theorem ordered_of_visited (path : List String) (routes : List Route)
    (growing : (lines routes).Pairwise (· < ·)) (node : Node)
    (visited : node ∈ visitsAll (groupBelow path routes)) :
    LinesGrow node.children ∧ (node.children ≠ [] → node.Heads) := by
  fun_induction groupBelow path routes with
  | case1 path => cases visited
  | case2 path line routes ih => exact ih growing.of_cons visited
  | case3 path label line routes ih =>
      rw [mem_visitsAll_cons] at visited
      rcases visited with rfl | none | later
      · exact ⟨.nil, fun some_child => absurd rfl some_child⟩
      · cases none
      · exact ih growing.of_cons later
  | case4 path label next rest line routes ihBelow ihRest =>
      have group := growing.sublist (lines_group_sublist label next rest line routes)
      rw [mem_visitsAll_cons] at visited
      rcases visited with rfl | below | later
      · exact ⟨linesGrow_groupBelow _ group, fun _ => heads_group path label next rest line _ group⟩
      · exact ihBelow group below
      · exact ihRest (growing.of_cons.sublist (lines_passing_sublist label routes)) later

theorem Ascending.lines_growing {pairs : List (String × Int)} (ascending : Ascending pairs) :
    (lines (pairs.map ofPair)).Pairwise (· < ·) := by
  rw [lines, List.pairwise_map, List.pairwise_map]
  refine ascending.imp fun lower => ?_
  rw [line_ofPair, line_ofPair]
  exact lower

theorem inDocumentOrder_grouping {pairs : List (String × Int)} (ascending : Ascending pairs) :
    InDocumentOrder (grouping pairs) where
  roots := linesGrow_groupBelow [] ascending.lines_growing
  children := fun node visited =>
    (ordered_of_visited [] _ ascending.lines_growing node visited).1
  groups := fun node visited =>
    (ordered_of_visited [] _ ascending.lines_growing node visited).2

/-- Annotations on ascending lines make an outline in the order of the document. The groups that
the builder has in its index are the nodes with children. -/
theorem build_inDocumentOrder (pairs : List (String × Int)) (ascending : Ascending pairs) :
    ∃ builder, (Builder.start (.token "::")).build pairs = (builder, none) ∧
      buildForest (.token "::") pairs = .ok builder.forest ∧
      InDocumentOrder builder.forest ∧
      ∀ node, (∃ key, builder.findContainer? key = some node) ↔
        node ∈ visitsAll builder.forest ∧ node.children ≠ [] := by
  have nonempty : ("::" : String) ≠ "" := by decide
  obtain ⟨builder, built, real, -⟩ :=
    (Builder.start (.token "::")).build_realizes Grows.nil rfl nonempty pairs
  have shown := ofPairs_group_shown pairs nonempty (by decide)
  refine ⟨builder, built, real.buildForest_eq nonempty, ?_,
    real.indexed_iff (Plan.ofPairs_full nonempty pairs) shown⟩
  rw [real.forest_eq_grouping]
  exact inDocumentOrder_grouping ascending

/-- Two groups that go on behind lines of each other, and a group inside one of them that begins
late. -/
theorem build_inDocumentOrder_interleaved :
    Ascending [("G::a", 2), ("H::x", 3), ("flat", 4), ("G::S::b", 7), ("H::y", 8), ("G::S::c", 9)] ∧
    ∃ builder, (Builder.start (.token "::")).build [("G::a", 2), ("H::x", 3), ("flat", 4),
        ("G::S::b", 7), ("H::y", 8), ("G::S::c", 9)] = (builder, none) ∧
      buildForest (.token "::") [("G::a", 2), ("H::x", 3), ("flat", 4), ("G::S::b", 7),
        ("H::y", 8), ("G::S::c", 9)] = .ok builder.forest ∧
      InDocumentOrder builder.forest ∧
      ∀ node, (∃ key, builder.findContainer? key = some node) ↔
        node ∈ visitsAll builder.forest ∧ node.children ≠ [] :=
  ⟨by decide, build_inDocumentOrder _ (by decide)⟩

end CommentOutline.Outline
