import CommentOutline.Proofs.Outline.Placement

set_option autoImplicit false

/-! The builder's forest is the grouped forest. Route by route, a plan follows the routes that it
was given: what stands below a path is what the routes behind that path put there. Unfolding the
groups of such a plan gives the grouped forest. -/

namespace CommentOutline.Outline

open List (Forall₂)
open Route

/-- A plan says of every plain path what the routes say. -/
structure Plan.Follows (plan : Plan) (routes : List Route) : Prop where
  roots : plan.roots = slotsBelow [] routes
  below : ∀ path : List String, path ≠ [] → PlainPath path →
    plan.below (pathKey path) = slotsBelow path (joiningAll path routes)
  named : ∀ (path : List String) (label : String), PlainPath (path ++ [label]) →
    plan.group? (pathKey (path ++ [label])) =
      (joiningAll (path ++ [label]) routes).head?.map fun route =>
        ⟨label, route.line, pathKey (path ++ [label])⟩

theorem Plan.follows_empty : Plan.empty.Follows [] where
  roots := by rw [slotsBelow]; rfl
  below := fun path _ _ => by rw [joiningAll, List.filterMap_nil, slotsBelow]; rfl
  named := fun _ _ _ => rfl

variable {plan : Plan} {routes : List Route} {route : Route}

theorem joiningAll_concat_route (path : List String) (routes : List Route) (route : Route) :
    joiningAll path (routes ++ [route]) =
      joiningAll path routes ++ (route.afterAll? path).toList := by
  rw [joiningAll, List.filterMap_append, joiningAll, List.filterMap_cons]
  cases route.afterAll? path <;> rfl

theorem Plan.Follows.isSome_group? (follows : plan.Follows routes) (path : List String)
    (label : String) (plain : PlainPath (path ++ [label])) :
    (plan.group? (pathKey (path ++ [label]))).isSome =
      !(joining label (joiningAll path routes)).isEmpty := by
  rw [follows.named path label plain, joiningAll_concat]
  cases joining label (joiningAll path routes) <;> rfl

theorem joiningAll_plain (path : List String) (plain : ∀ route ∈ routes, route.Plain) :
    ∀ route ∈ joiningAll path routes, route.Plain := by
  intro left member
  obtain ⟨route, inside, behind⟩ := List.mem_filterMap.mp member
  exact (plain route inside).afterAll? behind

theorem Plan.Follows.named_concat (follows : plan.Follows routes) (plainRoute : route.Plain)
    (path : List String) (label : String) (plain : PlainPath (path ++ [label])) :
    (plan.run route.steps).group? (pathKey (path ++ [label])) =
      (joiningAll (path ++ [label]) (routes ++ [route])).head?.map fun route =>
        ⟨label, route.line, pathKey (path ++ [label])⟩ := by
  rw [Plan.group?_run, follows.named path label plain, Route.find?_names_steps plainRoute plain,
    joiningAll_concat_route, List.head?_append, Option.map_or]
  cases route.afterAll? (path ++ [label]) <;> rfl

theorem Plan.Follows.below_concat (follows : plan.Follows routes)
    (plainAll : ∀ route ∈ routes, route.Plain) (plainRoute : route.Plain) (path : List String)
    (nonempty : path ≠ []) (plainPath : PlainPath path) :
    (plan.run route.steps).below (pathKey path) =
      slotsBelow path (joiningAll path (routes ++ [route])) := by
  rw [route.below_steps plan plainRoute nonempty plainPath, follows.below path nonempty plainPath,
    joiningAll_concat_route]
  cases behind : route.afterAll? path with
  | none => rw [Option.elim_none, Option.toList_none, List.append_nil, List.append_nil]
  | some left =>
      rw [Option.elim_some, Option.toList_some, slotsBelow_concat]
      congr 1
      apply lastSlots_congr
      intro label further goes
      have plainLabel := (plainRoute.afterAll? behind).label_of_after? goes
      rw [Plan.hasBelow, follows.below path nonempty plainPath]
      exact any_slotsBelow path label nonempty plainPath plainLabel _
        (joiningAll_plain path plainAll)

theorem Plan.Follows.roots_concat (follows : plan.Follows routes) (plainRoute : route.Plain) :
    (plan.run route.steps).roots = slotsBelow [] (routes ++ [route]) := by
  rw [slotsBelow_concat, ← follows.roots]
  obtain ⟨labels, line⟩ := route
  match labels, plainRoute with
  | [], plainRoute => exact absurd rfl plainRoute.going
  | [label], _ => rfl
  | top :: next :: rest, plainRoute =>
      have known := follows.isSome_group? [] top
        (Outline.Plain.path (plainRoute.labels top List.mem_cons_self))
      rw [List.nil_append, pathKey_singleton, joiningAll_nil] at known
      refine Eq.trans (roots_run_stepsBelow (plan.perform (.top top line)) line top _) ?_
      rw [lastSlots, ← known, Plan.perform]
      split
      · exact (List.append_nil _).symm
      · rw [List.nil_append, pathKey_singleton]
        rfl

theorem Plan.Follows.concat (follows : plan.Follows routes)
    (plainAll : ∀ route ∈ routes, route.Plain) (plainRoute : route.Plain) :
    (plan.run route.steps).Follows (routes ++ [route]) where
  roots := follows.roots_concat plainRoute
  below := follows.below_concat plainAll plainRoute
  named := follows.named_concat plainRoute

theorem Plan.Follows.run {more : List Route} (follows : plan.Follows routes)
    (plainAll : ∀ route ∈ routes, route.Plain) (plainMore : ∀ route ∈ more, route.Plain) :
    (plan.run (more.flatMap Route.steps)).Follows (routes ++ more) := by
  induction more generalizing plan routes with
  | nil =>
      rw [List.append_nil]
      exact follows
  | cons route more ih =>
      have plainRoute := plainMore route List.mem_cons_self
      rw [List.flatMap_cons, Plan.run_append, List.append_cons]
      apply ih (follows.concat plainAll plainRoute)
      · intro one member
        rcases List.mem_append.mp member with front | back
        · exact plainAll one front
        · rw [List.mem_singleton.mp back]
          exact plainRoute
      · exact fun one member => plainMore one (List.mem_cons_of_mem _ member)

theorem plain_map_ofPair (pairs : List (String × Int)) :
    ∀ route ∈ pairs.map Route.ofPair, route.Plain := by
  intro route member
  obtain ⟨pair, -, rfl⟩ := List.mem_map.mp member
  exact Route.plain_ofPair pair

theorem Plan.ofPairs_follows (pairs : List (String × Int)) :
    (Plan.ofPairs "::" pairs).Follows (pairs.map Route.ofPair) := by
  have steps : pairs.flatMap (stepsOf "::") = (pairs.map Route.ofPair).flatMap Route.steps := by
    rw [List.flatMap_map]
    congr 1
    funext pair
    exact (Route.steps_ofPair pair).symm
  rw [Plan.ofPairs, steps]
  exact Plan.follows_empty.run (fun _ member => nomatch member) (plain_map_ofPair pairs)

/-! ### Unfolding a plan that follows routes -/

/-- Every group that is still to come at a path is joined by the same routes as in the whole list,
although routes that went elsewhere may have been left out. -/
def Complete (path : List String) (here routes : List Route) : Prop :=
  ∀ label, joining label here ≠ [] → joining label here = joiningAll (path ++ [label]) routes

theorem complete_joiningAll (path : List String) (routes : List Route) :
    Complete path (joiningAll path routes) routes :=
  fun label _ => (joiningAll_concat path label routes).symm

theorem Complete.entry {path : List String} {label : String} {line : Int} {here : List Route}
    (complete : Complete path (⟨[label], line⟩ :: here) routes) : Complete path here routes := by
  intro other joined
  have same : joining other (⟨[label], line⟩ :: here) = joining other here :=
    joining_cons_of_none rfl here
  rw [← same] at joined ⊢
  exact complete other joined

theorem Complete.passing {path : List String} {label next : String} {rest : List String}
    {line : Int} {here : List Route}
    (complete : Complete path (⟨label :: next :: rest, line⟩ :: here) routes) :
    Complete path (passing label here) routes := by
  intro other joined
  by_cases same : label = other
  · rw [← same, joining_passing_self] at joined
    exact absurd rfl joined
  · have around : Route.after? other ⟨label :: next :: rest, line⟩ = none := if_neg same
    rw [joining_passing_other same] at joined ⊢
    rw [← joining_cons_of_none around here] at joined ⊢
    exact complete other joined

/-- The cells of what stands below a path show the nodes that the routes behind it make. -/
theorem view_eq_groupBelow {builder : Builder} (real : builder.Realizes plan)
    (follows : plan.Follows routes) (plainAll : ∀ route ∈ routes, route.Plain)
    (path : List String) (here : List Route) (ids : List Nat)
    (plainPath : PlainPath path) (plainHere : ∀ route ∈ here, route.Plain)
    (complete : Complete path here routes)
    (holds : Forall₂ builder.Holds ids (slotsBelow path here)) :
    builder.view ids = groupBelow path here := by
  rw [builder.view_eq_filterMap real.grows]
  fun_induction groupBelow path here generalizing ids with
  | case1 path =>
      rw [slotsBelow] at holds
      cases holds
      rfl
  | case2 path line here ih =>
      exact absurd rfl (plainHere _ List.mem_cons_self).going
  | case3 path label line here ih =>
      rw [slotsBelow] at holds
      obtain ⟨id, rest, held, others, rfl⟩ := List.forall₂_cons_right_iff.mp holds
      have shown := builder.nodeAt?_of_cell held.1
      have childless : builder.view [] = [] := builder.view_eq_filterMap real.grows []
      rw [childless] at shown
      rw [List.filterMap_cons_some shown]
      congr 1
      exact ih rest plainPath (fun route member => plainHere route (List.mem_cons_of_mem _ member))
        complete.entry others
  | case4 path label next rest line here ihBelow ihRest =>
      have plainLabel := (plainHere _ List.mem_cons_self).labels label List.mem_cons_self
      have plainGroup := plainPath.concat plainLabel
      -- all routes that join the group, not only those that are left here
      have members := complete label (by rw [joining_cons_self]; exact List.cons_ne_nil _ _)
      rw [joining_cons_self] at members
      rw [slotsBelow] at holds
      obtain ⟨id, ids, held, others, rfl⟩ := List.forall₂_cons_right_iff.mp holds
      obtain ⟨cell, present, carries⟩ := real.group _ id held
      have named := follows.named path label plainGroup
      rw [← members, carries.named, List.head?_cons, Option.map_some, Option.some.injEq,
        Cell.brief, Brief.mk.injEq] at named
      have children := carries.children
      rw [follows.below (path ++ [label]) (by simp) plainGroup] at children
      rw [members] at ihBelow ⊢
      have below := ihBelow cell.children plainGroup (joiningAll_plain _ plainAll)
        (complete_joiningAll _ routes) children
      rw [← builder.view_eq_filterMap real.grows] at below
      have shown := builder.nodeAt?_of_cell present
      rw [below, named.1, named.2.1, named.2.2] at shown
      rw [List.filterMap_cons_some shown]
      congr 1
      refine ihRest ids plainPath ?_ complete.passing others
      exact fun route member =>
        plainHere route (List.mem_cons_of_mem _ (List.mem_of_mem_filter member))

theorem Builder.Realizes.forest_eq_grouping {builder : Builder} {pairs : List (String × Int)}
    (real : builder.Realizes (.ofPairs "::" pairs)) : builder.forest = grouping pairs := by
  have follows := Plan.ofPairs_follows pairs
  have roots := real.roots
  rw [follows.roots] at roots
  have complete := complete_joiningAll [] (pairs.map Route.ofPair)
  rw [joiningAll_nil] at complete
  refine view_eq_groupBelow real follows (plain_map_ofPair pairs) [] _ _ ?_
    (plain_map_ofPair pairs) complete roots
  exact fun label member => nomatch member

/-- The outline of annotations is their grouped forest. -/
theorem buildForest_eq_grouping (pairs : List (String × Int)) :
    buildForest (.token "::") pairs = .ok (grouping pairs) := by
  have nonempty : ("::" : String) ≠ "" := by decide
  obtain ⟨builder, built, real⟩ := buildForest_eq_forest nonempty pairs
  rw [built, real.forest_eq_grouping]

end CommentOutline.Outline
