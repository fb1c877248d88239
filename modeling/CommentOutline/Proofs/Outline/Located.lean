import Mathlib.Data.List.Perm.Basic
import CommentOutline.Proofs.Outline.Grouping

set_option autoImplicit false

/-! Places in an outline. Every node is listed with the labels on the path to it. In a grouped
forest the entries are the routes, each at its own labels, and a group has the line of the first
route that goes on behind it. -/

namespace CommentOutline.Outline

open Route

mutual

/-- The node and all below it, each with the labels on its path. -/
def located : (path : List String) → Node → List (List String × Node)
  | path, ⟨label, line, key, children⟩ =>
      (path ++ [label], ⟨label, line, key, children⟩) :: locatedAll (path ++ [label]) children

def locatedAll : (path : List String) → List Node → List (List String × Node)
  | _, [] => []
  | path, node :: nodes => located path node ++ locatedAll path nodes

end

mutual

theorem exists_front_of_mem_located (place : List String × Node) : (path : List String) →
    (node : Node) → place ∈ located path node → ∃ front, place.1 = front ++ [place.2.label]
  | path, ⟨label, line, key, children⟩, member => by
      rw [located, List.mem_cons] at member
      rcases member with rfl | below
      · exact ⟨path, rfl⟩
      · exact exists_front_of_mem_locatedAll place (path ++ [label]) children below

theorem exists_front_of_mem_locatedAll (place : List String × Node) : (path : List String) →
    (forest : List Node) → place ∈ locatedAll path forest →
    ∃ front, place.1 = front ++ [place.2.label]
  | _, [], member => nomatch member
  | path, node :: nodes, member => by
      rw [locatedAll, List.mem_append] at member
      rcases member with front | back
      · exact exists_front_of_mem_located place path node front
      · exact exists_front_of_mem_locatedAll place path nodes back

end

def entryPlaces (places : List (List String × Node)) : List (List String × Int) :=
  (places.filter fun place => place.2.isLeaf).map fun place => (place.1, place.2.line)

theorem entryPlaces_append (first second : List (List String × Node)) :
    entryPlaces (first ++ second) = entryPlaces first ++ entryPlaces second := by
  rw [entryPlaces, List.filter_append, List.map_append, entryPlaces, entryPlaces]

theorem mem_entryPlaces {places : List (List String × Node)} {place : List String × Node}
    (member : place ∈ places) (childless : place.2.children = []) :
    (place.1, place.2.line) ∈ entryPlaces places := by
  apply List.mem_map_of_mem
  exact List.mem_filter.mpr ⟨member, List.isEmpty_iff.mpr childless⟩

theorem groupBelow_ne_nil (path : List String) {routes : List Route} (some_route : routes ≠ [])
    (going : ∀ route ∈ routes, route.labels ≠ []) : groupBelow path routes ≠ [] := by
  match routes with
  | [] => exact absurd rfl some_route
  | ⟨[], line⟩ :: rest => exact absurd rfl (going _ List.mem_cons_self)
  | ⟨[label], line⟩ :: rest =>
      rw [groupBelow]
      exact List.cons_ne_nil _ _
  | ⟨label :: next :: more, line⟩ :: rest =>
      rw [groupBelow]
      exact List.cons_ne_nil _ _

theorem going_of_mem_joining {label : String} {routes : List Route} {left : Route}
    (member : left ∈ joining label routes) : left.labels ≠ [] := by
  obtain ⟨route, -, goes⟩ := List.mem_filterMap.mp member
  exact ((after?_eq_some_iff label route left).mp goes).2.1

theorem going_of_mem_group {label next : String} {rest : List String} {line : Int}
    {routes : List Route} (route : Route)
    (member : route ∈ (⟨next :: rest, line⟩ : Route) :: joining label routes) :
    route.labels ≠ [] := by
  rcases List.mem_cons.mp member with rfl | later
  · exact List.cons_ne_nil _ _
  · exact going_of_mem_joining later

theorem groupBelow_group_ne_nil (path : List String) (label next : String) (rest : List String)
    (line : Int) (routes : List Route) :
    groupBelow path (⟨next :: rest, line⟩ :: joining label routes) ≠ [] :=
  groupBelow_ne_nil path (List.cons_ne_nil _ _) going_of_mem_group

def Route.place (path : List String) (route : Route) : List String × Int :=
  (path ++ route.labels, route.line)

theorem joining_passing_perm (path : List String) (label : String) (routes : List Route) :
    ((joining label routes).map (place (path ++ [label])) ++
      (passing label routes).map (place path)).Perm (routes.map (place path)) := by
  induction routes with
  | nil => exact List.Perm.nil
  | cons route routes ih =>
      rw [joining, List.filterMap_cons, passing, List.filter_cons, List.map_cons]
      cases goes : route.after? label with
      | some left =>
          have same : place (path ++ [label]) left = place path route := by
            obtain ⟨front, -, sameLine⟩ := (after?_eq_some_iff label route left).mp goes
            rw [place, place, front, sameLine, ← List.append_cons]
          rw [Option.isNone_some, if_neg Bool.false_ne_true, List.map_cons, List.cons_append, same]
          exact ih.cons _
      | none =>
          rw [Option.isNone_none, if_pos rfl, List.map_cons]
          exact List.perm_middle.trans (ih.cons _)

/-- The entries of a grouped forest are the routes, each where its labels lead. -/
theorem entryPlaces_groupBelow_perm (path : List String) (routes : List Route)
    (going : ∀ route ∈ routes, route.labels ≠ []) :
    (entryPlaces (locatedAll path (groupBelow path routes))).Perm (routes.map (place path)) := by
  fun_induction groupBelow path routes with
  | case1 path =>
      rw [locatedAll]
      exact List.Perm.nil
  | case2 path line routes ih => exact absurd rfl (going _ List.mem_cons_self)
  | case3 path label line routes ih =>
      have later := ih fun route member => going route (List.mem_cons_of_mem _ member)
      rw [locatedAll, located, locatedAll, entryPlaces_append, List.map_cons]
      exact later.cons _
  | case4 path label next rest line routes ihBelow ihRest =>
      have some_child := groupBelow_group_ne_nil (path ++ [label]) label next rest line routes
      have below := ihBelow going_of_mem_group
      have later := ihRest fun route member =>
        going route (List.mem_cons_of_mem _ (List.mem_of_mem_filter member))
      have noEntry : ∀ (node : Node) (places : List (List String × Node)), node.children ≠ [] →
          entryPlaces ((path ++ [label], node) :: places) = entryPlaces places := by
        intro node places some_child
        rw [entryPlaces, List.filter_cons_of_neg]
        · rfl
        · exact fun leaf => some_child (List.isEmpty_iff.mp leaf)
      rw [locatedAll, located, entryPlaces_append, noEntry _ _ some_child]
      refine (below.append later).trans ?_
      have first : place (path ++ [label]) ⟨next :: rest, line⟩ =
          place path ⟨label :: next :: rest, line⟩ := by
        rw [place, place, ← List.append_cons]
      rw [List.map_cons, List.map_cons, List.cons_append, first]
      exact (joining_passing_perm path label routes).cons _

theorem joiningAll_cons (label : String) (path : List String) (routes : List Route) :
    joiningAll (label :: path) routes = joiningAll path (joining label routes) := by
  rw [joiningAll, joiningAll, joining, List.filterMap_filterMap]
  rfl

/-- A group of a grouped forest has the line of the first route that goes on behind its path. -/
theorem line_of_mem_locatedAll (path : List String) (routes : List Route)
    (place : List String × Node) (member : place ∈ locatedAll path (groupBelow path routes))
    (some_child : place.2.children ≠ []) :
    ∃ label more, place.1 = path ++ label :: more ∧
      (joiningAll (label :: more) routes).head?.map Route.line = some place.2.line := by
  fun_induction groupBelow path routes with
  | case1 path =>
      rw [locatedAll] at member
      cases member
  | case2 path line routes ih =>
      obtain ⟨label, more, split, first⟩ := ih member
      refine ⟨label, more, split, ?_⟩
      rw [joiningAll_cons] at first ⊢
      rw [joining_cons_of_none rfl]
      exact first
  | case3 path label line routes ih =>
      rw [locatedAll, located, locatedAll, List.mem_append, List.mem_singleton] at member
      rcases member with rfl | later
      · exact absurd rfl some_child
      · obtain ⟨other, more, split, first⟩ := ih later
        refine ⟨other, more, split, ?_⟩
        rw [joiningAll_cons] at first ⊢
        rw [joining_cons_of_none rfl]
        exact first
  | case4 path label next rest line routes ihBelow ihRest =>
      rw [locatedAll, located, List.mem_append, List.mem_cons] at member
      rcases member with (rfl | below) | later
      · refine ⟨label, [], rfl, ?_⟩
        rw [joiningAll_cons, joiningAll_nil, joining_cons_self]
        rfl
      · obtain ⟨other, more, split, first⟩ := ihBelow below
        refine ⟨label, other :: more, by rw [split, ← List.append_cons], ?_⟩
        rw [joiningAll_cons, joining_cons_self]
        exact first
      · obtain ⟨other, more, split, first⟩ := ihRest later
        refine ⟨other, more, split, ?_⟩
        rw [joiningAll_cons] at first ⊢
        by_cases same : label = other
        · rw [← same, joining_passing_self] at first
          cases first
        · have around : Route.after? other ⟨label :: next :: rest, line⟩ = none := if_neg same
          rw [joining_passing_other same] at first
          rw [joining_cons_of_none around]
          exact first

end CommentOutline.Outline
