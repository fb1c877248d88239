import CommentOutline.Outline.Node
import CommentOutline.Proofs.Outline.Path

set_option autoImplicit false

/-! Outlines by grouping. An annotation is a route, the labels that are still to be placed and the
line; all routes that begin with one label and go on after it make one group, which stands where
the first of them does. The grouped forest is the second definition of an outline, with neither a
store nor an index of groups. -/

namespace CommentOutline.Outline

/-- An annotation on the way to its place. -/
structure Route where
  labels : List String
  line : Int
deriving Repr, DecidableEq

namespace Route

/-- The route of an annotation, cut at the standard separator. -/
def ofPair (pair : String × Int) : Route :=
  if Text.contains pair.1 "::" then ⟨Builder.segments "::" pair.1, pair.2⟩ else ⟨[pair.1], pair.2⟩

/-- What is left of a route behind a group with the given label at its front. -/
def after? (label : String) : Route → Option Route
  | ⟨first :: next :: rest, line⟩ => if first = label then some ⟨next :: rest, line⟩ else none
  | _ => none

def joining (label : String) (routes : List Route) : List Route := routes.filterMap (after? label)

def passing (label : String) (routes : List Route) : List Route :=
  routes.filter fun route => (route.after? label).isNone

def afterAll? : (path : List String) → Route → Option Route
  | [], route => some route
  | label :: path, route => (route.after? label).bind (afterAll? path)

def joiningAll (path : List String) (routes : List Route) : List Route :=
  routes.filterMap (afterAll? path)

theorem line_ofPair (pair : String × Int) : (ofPair pair).line = pair.2 := by
  rw [ofPair]
  split <;> rfl

theorem labels_ofPair {pair : String × Int} (cut : Text.contains pair.1 "::" = true) :
    (ofPair pair).labels = Builder.segments "::" pair.1 := by
  rw [ofPair, if_pos cut]

theorem labels_ofPair_flat {pair : String × Int}
    (flat : Text.contains pair.1 "::" = false) : (ofPair pair).labels = [pair.1] := by
  rw [ofPair, if_neg (Bool.eq_false_iff.mp flat)]

theorem going_ofPair (pair : String × Int) : (ofPair pair).labels ≠ [] := by
  cases cut : Text.contains pair.1 "::" with
  | true =>
      obtain ⟨top, next, rest, labels⟩ := exists_segments_of_contains (by decide) cut
      rw [labels_ofPair cut, labels]
      exact List.cons_ne_nil _ _
  | false =>
      rw [labels_ofPair_flat cut]
      exact List.cons_ne_nil _ _

theorem after?_eq_some_iff (label : String) (route left : Route) :
    route.after? label = some left ↔
      route.labels = label :: left.labels ∧ left.labels ≠ [] ∧ left.line = route.line := by
  obtain ⟨labels, line⟩ := route
  obtain ⟨rest, line'⟩ := left
  match labels with
  | [] => simp [after?]
  | [first] =>
      simp only [after?, reduceCtorEq, List.cons.injEq, false_iff]
      intro given
      rcases given with ⟨⟨_, ended⟩, going, _⟩
      exact going ended.symm
  | first :: next :: more =>
      rw [after?]
      split
      · rename_i same
        simp only [same, Option.some.injEq, mk.injEq, List.cons.injEq, true_and]
        constructor
        · intro given
          rcases given with ⟨rfl, rfl⟩
          exact ⟨rfl, List.cons_ne_nil _ _, rfl⟩
        · intro given
          rcases given with ⟨rfl, _, rfl⟩
          exact ⟨rfl, rfl⟩
      · rename_i differs
        simp only [reduceCtorEq, List.cons.injEq, false_iff]
        exact fun both => differs both.1.1

theorem afterAll?_eq_some_iff (path : List String) (route left : Route)
    (some_label : route.labels ≠ []) :
    route.afterAll? path = some left ↔
      route.labels = path ++ left.labels ∧ left.labels ≠ [] ∧ left.line = route.line := by
  induction path generalizing route with
  | nil =>
      simp only [afterAll?, Option.some.injEq, List.nil_append]
      constructor
      · rintro rfl
        exact ⟨rfl, some_label, rfl⟩
      · intro given
        rcases given with ⟨sameLabels, _, sameLine⟩
        cases route
        cases left
        cases sameLabels
        cases sameLine
        rfl
  | cons label path ih =>
      simp only [afterAll?, Option.bind_eq_some_iff, after?_eq_some_iff]
      constructor
      · intro given
        rcases given with ⟨middle, ⟨front, going, line⟩, behind⟩
        rw [ih middle going] at behind
        exact ⟨by rw [front, behind.1, List.cons_append], behind.2.1, behind.2.2.trans line⟩
      · intro given
        rcases given with ⟨front, going, line⟩
        have going' : path ++ left.labels ≠ [] := by simp [going]
        refine ⟨⟨path ++ left.labels, route.line⟩, ⟨front, going', rfl⟩, ?_⟩
        exact (ih _ going').mpr ⟨rfl, going, line⟩

theorem afterAll?_concat (path : List String) (label : String) (route : Route) :
    route.afterAll? (path ++ [label]) = (route.afterAll? path).bind (after? label) := by
  induction path generalizing route with
  | nil => simp [afterAll?]
  | cons first path ih =>
      rw [List.cons_append, afterAll?, afterAll?, Option.bind_assoc]
      congr 1
      funext left
      exact ih left

theorem joiningAll_concat (path : List String) (label : String) (routes : List Route) :
    joiningAll (path ++ [label]) routes = joining label (joiningAll path routes) := by
  rw [joiningAll, joiningAll, joining, List.filterMap_filterMap]
  congr 1
  funext route
  exact afterAll?_concat path label route

theorem joiningAll_nil (routes : List Route) : joiningAll [] routes = routes :=
  List.filterMap_some

theorem joining_cons_self (label next : String) (rest : List String) (line : Int)
    (routes : List Route) :
    joining label (⟨label :: next :: rest, line⟩ :: routes) =
      ⟨next :: rest, line⟩ :: joining label routes := by
  rw [joining, List.filterMap_cons, after?, if_pos rfl]
  rfl

theorem joining_cons_of_none {label : String} {route : Route} (other : route.after? label = none)
    (routes : List Route) : joining label (route :: routes) = joining label routes := by
  rw [joining, List.filterMap_cons, other]
  rfl

theorem after?_of_ne {label other : String} (differs : label ≠ other) {route left : Route}
    (goes : route.after? label = some left) : route.after? other = none := by
  rw [Option.eq_none_iff_forall_ne_some]
  intro another same
  rw [after?_eq_some_iff] at goes same
  rw [goes.1] at same
  exact differs (List.cons.inj same.1).1

theorem joining_passing_self (label : String) (routes : List Route) :
    joining label (passing label routes) = [] := by
  rw [joining, List.filterMap_eq_nil_iff]
  intro route member
  exact Option.isNone_iff_eq_none.mp (List.mem_filter.mp member).2

theorem joining_passing_other {label other : String} (differs : label ≠ other)
    (routes : List Route) : joining other (passing label routes) = joining other routes := by
  induction routes with
  | nil => rfl
  | cons route routes ih =>
      rw [passing, List.filter_cons]
      cases goes : route.after? label with
      | none =>
          rw [Option.isNone_none, if_pos rfl, joining, List.filterMap_cons, joining,
            List.filterMap_cons]
          unfold joining passing at ih
          rw [ih]
      | some left =>
          rw [Option.isNone_some, if_neg Bool.false_ne_true,
            joining_cons_of_none (after?_of_ne differs goes)]
          exact ih

/-- The number of labels, with one more for each route. -/
def weight (routes : List Route) : Nat :=
  routes.foldr (fun route total => route.labels.length + 1 + total) 0

theorem weight_cons (route : Route) (routes : List Route) :
    weight (route :: routes) = route.labels.length + 1 + weight routes :=
  rfl

theorem weight_joining_le (label : String) (routes : List Route) :
    weight (joining label routes) ≤ weight routes := by
  induction routes with
  | nil => exact Nat.le_refl 0
  | cons route routes ih =>
      rw [weight_cons, joining, List.filterMap_cons]
      split
      · exact Nat.le_trans ih (Nat.le_add_left _ _)
      · rename_i rest found
        have shorter : rest.labels.length ≤ route.labels.length := by
          obtain ⟨labels, line⟩ := route
          match labels, found with
          | first :: next :: more, found =>
              rw [after?] at found
              split at found
              · cases found
                exact Nat.le_succ _
              · cases found
        rw [weight_cons]
        exact Nat.add_le_add (Nat.succ_le_succ shorter) ih

theorem weight_passing_le (label : String) (routes : List Route) :
    weight (passing label routes) ≤ weight routes := by
  induction routes with
  | nil => exact Nat.le_refl 0
  | cons route routes ih =>
      rw [weight_cons, passing, List.filter_cons]
      split
      · rw [weight_cons]
        exact Nat.add_le_add_left ih _
      · exact Nat.le_trans ih (Nat.le_add_left _ _)

end Route

/-- The key of what has one label left at the end of a path: the label itself at the top, and the
key of the whole path with the line below a group. -/
def entryKey (path : List String) (label : String) (line : Int) : String :=
  match path with
  | [] => label
  | top :: rest => pathKey (top :: rest ++ [label]) ++ " :: line number " ++ line.repr

open Route in
/-- The nodes that routes make below a path. A route with one label left is an entry. The first one
that goes on makes the group of its label there, on its own line, with all the others that go on
behind the same label. -/
def groupBelow : (path : List String) → List Route → List Node
  | _, [] => []
  | path, ⟨[], _⟩ :: routes => groupBelow path routes
  | path, ⟨[label], line⟩ :: routes =>
      ⟨label, line, entryKey path label line, []⟩ :: groupBelow path routes
  | path, ⟨label :: next :: rest, line⟩ :: routes =>
      ⟨label, line, pathKey (path ++ [label]),
        groupBelow (path ++ [label]) (⟨next :: rest, line⟩ :: joining label routes)⟩ ::
      groupBelow path (passing label routes)
termination_by _ routes => weight routes
decreasing_by
  all_goals
    have joined := weight_joining_le
    have passed := weight_passing_le
    simp only [weight_cons, List.length_cons, List.length_nil]
  · omega
  · omega
  · have bounded := joined label routes
    omega
  · have bounded := passed label routes
    omega

def grouping (pairs : List (String × Int)) : List Node := groupBelow [] (pairs.map Route.ofPair)

end CommentOutline.Outline
