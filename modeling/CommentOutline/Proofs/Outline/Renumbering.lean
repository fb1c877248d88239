import CommentOutline.Proofs.Outline.Agreement
import CommentOutline.Proofs.Outline.Located

set_option autoImplicit false

/-! Annotations on other lines. The labels alone decide which nodes an outline has and where they
stand; the lines stand in the nodes and at the end of the keys of entries below groups. So the
outline of the same annotations on other lines is the same outline with the lines exchanged. -/

namespace CommentOutline.Outline

/-- A key that ends in a line number, with another line number. -/
def renumberKey (key : String) (old new : Int) : String :=
  String.ofList (key.toList.take (key.toList.length - old.repr.toList.length)) ++ new.repr

mutual

/-- A node below a group on its new lines: an entry has its line in its key, a group has not. -/
def renumberBelow (f : Int → Int) : Node → Node
  | ⟨label, line, key, children⟩ =>
      ⟨label, f line, if children.isEmpty then renumberKey key line (f line) else key,
        renumberAllBelow f children⟩

def renumberAllBelow (f : Int → Int) : List Node → List Node
  | [] => []
  | node :: nodes => renumberBelow f node :: renumberAllBelow f nodes

end

/-- A root on its new lines; the key of a root has no line in it. -/
def renumberRoot (f : Int → Int) (node : Node) : Node :=
  ⟨node.label, f node.line, node.key, renumberAllBelow f node.children⟩

def renumber (f : Int → Int) (forest : List Node) : List Node := forest.map (renumberRoot f)

theorem renumberKey_leafKey (parent label : String) (old new : Int) :
    renumberKey (leafKey parent label old) old new = leafKey parent label new := by
  have chars : (leafKey parent label old).toList =
      (containerKey parent label ++ keyJoiner ++ leafTag).toList ++ old.repr.toList := by
    rw [leafKey, String.toList_append]
  rw [renumberKey, chars, List.length_append, Nat.add_sub_cancel, List.take_left,
    String.ofList_toList]
  rfl

/-! ### Routes on other lines -/

namespace Route

def onLine (f : Int → Int) (route : Route) : Route := ⟨route.labels, f route.line⟩

variable (f : Int → Int)

theorem ofPair_onLine (pair : String × Int) :
    ofPair (pair.1, f pair.2) = (ofPair pair).onLine f := by
  unfold ofPair
  split <;> rfl

theorem after?_onLine (label : String) (route : Route) :
    (route.onLine f).after? label = (route.after? label).map (onLine f) := by
  match route with
  | ⟨[], line⟩ => rfl
  | ⟨[last], line⟩ => rfl
  | ⟨first :: next :: rest, line⟩ =>
      rw [onLine, after?, after?]
      split <;> rfl

theorem joining_onLine (label : String) (routes : List Route) :
    joining label (routes.map (onLine f)) = (joining label routes).map (onLine f) := by
  rw [joining, joining, List.filterMap_map, List.map_filterMap]
  congr 1
  funext route
  exact after?_onLine f label route

theorem passing_onLine (label : String) (routes : List Route) :
    passing label (routes.map (onLine f)) = (passing label routes).map (onLine f) := by
  rw [passing, passing, List.filter_map]
  congr 2
  funext route
  rw [Function.comp_apply, after?_onLine, Option.isNone_map]

end Route

open Route

/-- Which routes make a group depends on their labels only, so the same groups come about. -/
theorem groupBelow_onLine (f : Int → Int) (path : List String) (routes : List Route)
    (begun : path ≠ []) :
    groupBelow path (routes.map (onLine f)) = renumberAllBelow f (groupBelow path routes) := by
  fun_induction groupBelow path routes with
  | case1 path => rw [List.map_nil, groupBelow, renumberAllBelow]
  | case2 path line routes ih =>
      rw [List.map_cons, onLine, groupBelow]
      exact ih begun
  | case3 path label line routes ih =>
      obtain ⟨top, rest, rfl⟩ := List.exists_cons_of_ne_nil begun
      have keyed : ∀ number, entryKey (top :: rest) label number =
          leafKey (pathKey (top :: rest)) label number := by
        intro number
        exact entryKey_eq_leafKey (top :: rest) label number begun
      rw [List.map_cons, onLine, groupBelow, renumberAllBelow, renumberBelow, renumberAllBelow,
        List.isEmpty_nil, if_pos rfl, keyed, keyed, renumberKey_leafKey, ih begun]
  | case4 path label next rest line routes ihBelow ihRest =>
      have some_child := groupBelow_group_ne_nil (path ++ [label]) label next rest line routes
      rw [List.map_cons, onLine, groupBelow, renumberAllBelow, renumberBelow,
        if_neg (fun none => some_child (List.isEmpty_iff.mp none)), ← ihBelow (by simp),
        ← ihRest begun, joining_onLine, passing_onLine]
      rfl

theorem groupBelow_top_onLine (f : Int → Int) (path : List String) (routes : List Route)
    (top : path = []) :
    groupBelow path (routes.map (onLine f)) = renumber f (groupBelow path routes) := by
  fun_induction groupBelow path routes with
  | case1 path => rw [List.map_nil, groupBelow, renumber, List.map_nil]
  | case2 path line routes ih =>
      rw [List.map_cons, onLine, groupBelow]
      exact ih top
  | case3 path label line routes ih =>
      rw [List.map_cons, onLine, groupBelow, ih top, top]
      rfl
  | case4 path label next rest line routes _ ihRest =>
      have below := groupBelow_onLine f (path ++ [label])
        ((⟨next :: rest, line⟩ : Route) :: joining label routes) (by simp)
      rw [List.map_cons, onLine, groupBelow, passing_onLine, ihRest top, renumber, renumber,
        List.map_cons, renumberRoot, ← below, joining_onLine]
      rfl

theorem grouping_onLine (f : Int → Int) (pairs : List (String × Int)) :
    grouping (pairs.map fun pair => (pair.1, f pair.2)) = renumber f (grouping pairs) := by
  rw [grouping, List.map_map, grouping, ← groupBelow_top_onLine f [] _ rfl, List.map_map]
  congr 2
  funext pair
  exact ofPair_onLine f pair

theorem buildForest_onLine (f : Int → Int) (pairs : List (String × Int)) :
    ∃ forest, buildForest (.token "::") pairs = .ok forest ∧
      buildForest (.token "::") (pairs.map fun pair => (pair.1, f pair.2)) =
        .ok (renumber f forest) := by
  have nonempty : ("::" : String) ≠ "" := by decide
  obtain ⟨builder, built, real⟩ := buildForest_eq_forest nonempty pairs
  obtain ⟨other, builtOther, realOther⟩ :=
    buildForest_eq_forest nonempty (pairs.map fun pair => (pair.1, f pair.2))
  refine ⟨builder.forest, built, ?_⟩
  rw [builtOther, realOther.forest_eq_grouping, grouping_onLine, real.forest_eq_grouping]

end CommentOutline.Outline
