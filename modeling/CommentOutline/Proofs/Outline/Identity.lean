import CommentOutline.Proofs.Outline.Agreement
import CommentOutline.Proofs.Outline.Keys
import CommentOutline.Proofs.Outline.Origin
import CommentOutline.Proofs.Outline.Walk

set_option autoImplicit false

/-! Keys as identities. Under the standard separator a key is made of the labels on the path to its
node, and the key of an entry below a group has the line of the entry after them. So two nodes share
a key only if one is an entry and the other is a group one label further on, whose label reads like
the line in the key of the entry. Such a group never stands beside the entry. -/

namespace CommentOutline.Outline

open Route

/-- A node that annotations with a path are made into: a group, or an entry below one. -/
def OnPath (place : List String × Node) : Prop := 1 < place.1.length ∨ place.2.children ≠ []

instance : DecidablePred OnPath := fun place =>
  inferInstanceAs (Decidable (1 < place.1.length ∨ place.2.children ≠ []))

/-- The labels that the key of a node on a path is made of. -/
def keyLabels (place : List String × Node) : List String :=
  if place.2.children = [] then place.1 ++ [lineTag place.2.line] else place.1

/-- The second node is the group that goes on behind the first one, an entry, with a label that
reads like the line of the entry. -/
def FollowsTag (entry group : List String × Node) : Prop :=
  entry.2.children = [] ∧ group.2.children ≠ [] ∧ group.1 = entry.1 ++ [lineTag entry.2.line]

/-! ### Places and their nodes -/

mutual

theorem map_snd_located (path : List String) : (node : Node) →
    (located path node).map Prod.snd = visits node
  | ⟨label, line, key, children⟩ => by
      rw [located, visits, List.map_cons, map_snd_locatedAll (path ++ [label]) children]

theorem map_snd_locatedAll (path : List String) : (forest : List Node) →
    (locatedAll path forest).map Prod.snd = visitsAll forest
  | [] => rfl
  | node :: nodes => by
      rw [locatedAll, visitsAll, List.map_append, map_snd_located path node,
        map_snd_locatedAll path nodes]

end

def placesAt (path : List String) (nodes : List Node) : List (List String × Node) :=
  nodes.map fun node => (path ++ [node.label], node)

theorem placesAt_sublist_locatedAll (path : List String) (forest : List Node) :
    (placesAt path forest).Sublist (locatedAll path forest) := by
  induction forest with
  | nil => exact .slnil
  | cons node nodes ih =>
      obtain ⟨label, line, key, children⟩ := node
      rw [placesAt, List.map_cons, locatedAll, located, List.cons_append]
      exact (ih.trans (List.sublist_append_right _ _)).cons_cons _

mutual

theorem placesAt_children_sublist_located (place : List String × Node) : (path : List String) →
    (node : Node) → place ∈ located path node →
    (placesAt place.1 place.2.children).Sublist (located path node)
  | path, ⟨label, line, key, children⟩, member => by
      rw [located, List.mem_cons] at member
      rw [located]
      rcases member with rfl | below
      · exact (placesAt_sublist_locatedAll (path ++ [label]) children).cons _
      · exact (placesAt_children_sublist_locatedAll place (path ++ [label]) children below).cons _

theorem placesAt_children_sublist_locatedAll (place : List String × Node) :
    (path : List String) → (forest : List Node) → place ∈ locatedAll path forest →
    (placesAt place.1 place.2.children).Sublist (locatedAll path forest)
  | _, [], member => nomatch member
  | path, node :: nodes, member => by
      rw [locatedAll, List.mem_append] at member
      rw [locatedAll]
      rcases member with front | back
      · exact (placesAt_children_sublist_located place path node front).trans
          (List.sublist_append_left _ _)
      · exact (placesAt_children_sublist_locatedAll place path nodes back).trans
          (List.sublist_append_right _ _)

end

/-! ### Keys in a grouped forest -/

theorem plain_of_mem_group {label next : String} {rest : List String} {line : Int}
    {routes : List Route} (plain : ∀ route ∈ ⟨label :: next :: rest, line⟩ :: routes, route.Plain) :
    ∀ route ∈ (⟨next :: rest, line⟩ : Route) :: joining label routes, route.Plain := by
  intro left member
  rw [← joining_cons_self] at member
  obtain ⟨route, inside, goes⟩ := List.mem_filterMap.mp member
  have behind : route.afterAll? [label] = some left := by
    rw [afterAll?, goes, Option.bind_some, afterAll?]
  exact (plain route inside).afterAll? behind

/-- The key of a node on a path is that of its labels, and these can be read back from it. -/
theorem key_eq_of_mem_locatedAll (path : List String) (routes : List Route)
    (plainPath : PlainPath path) (plain : ∀ route ∈ routes, route.Plain)
    (place : List String × Node) (member : place ∈ locatedAll path (groupBelow path routes))
    (onPath : OnPath place) :
    PlainPath (keyLabels place) ∧ place.2.key = pathKey (keyLabels place) := by
  fun_induction groupBelow path routes with
  | case1 path =>
      rw [locatedAll] at member
      cases member
  | case2 path line routes ih => exact absurd rfl (plain _ List.mem_cons_self).going
  | case3 path label line routes ih =>
      rw [locatedAll, located, locatedAll, List.mem_append, List.mem_singleton] at member
      rcases member with rfl | later
      · -- an entry on a path stands below a group, so the path to it has begun
        have begun : path ≠ [] := by
          rintro rfl
          exact onPath.elim (Nat.lt_irrefl 1) (absurd rfl)
        have plainLabel := (plain _ List.mem_cons_self).labels label List.mem_cons_self
        rw [keyLabels, if_pos rfl]
        refine ⟨(plainPath.concat plainLabel).concat (lineTag_plain line), ?_⟩
        change entryKey path label line = _
        rw [entryKey_eq_leafKey path label line begun, leafKey_pathKey path label line begun,
          ← List.append_cons]
      · exact ih plainPath (fun route inside => plain route (List.mem_cons_of_mem _ inside)) later
  | case4 path label next rest line routes ihBelow ihRest =>
      have some_child := groupBelow_group_ne_nil (path ++ [label]) label next rest line routes
      have plainLabel := (plain _ List.mem_cons_self).labels label List.mem_cons_self
      rw [locatedAll, located, List.mem_append, List.mem_cons] at member
      rcases member with (rfl | below) | later
      · rw [keyLabels, if_neg some_child]
        exact ⟨plainPath.concat plainLabel, rfl⟩
      · exact ihBelow (plainPath.concat plainLabel) (plain_of_mem_group plain) below
      · refine ihRest plainPath (fun route inside => ?_) later
        exact plain route (List.mem_cons_of_mem _ (List.mem_of_mem_filter inside))

def groupPlaces (places : List (List String × Node)) : List (List String × Node) :=
  places.filter fun place => !place.2.isLeaf

theorem mem_groupPlaces_iff (places : List (List String × Node)) (place : List String × Node) :
    place ∈ groupPlaces places ↔ place ∈ places ∧ place.2.children ≠ [] := by
  rw [groupPlaces, List.mem_filter, Bool.not_eq_true', Node.isLeaf, List.isEmpty_eq_false_iff]

theorem joiningAll_passing_self (label : String) (path : List String) (routes : List Route) :
    joiningAll (label :: path) (passing label routes) = [] := by
  rw [joiningAll_cons, joining_passing_self]
  rfl

theorem ne_of_mem_passing {label other : String} {path : List String} {routes : List Route}
    (joined : joiningAll (other :: path) (passing label routes) ≠ []) : label ≠ other := by
  rintro rfl
  exact joined (joiningAll_passing_self label path routes)

theorem exists_of_mem_groupPlaces {path : List String} {routes : List Route}
    {place : List String × Node}
    (member : place ∈ groupPlaces (locatedAll path (groupBelow path routes))) :
    ∃ label more, place.1 = path ++ label :: more ∧ joiningAll (label :: more) routes ≠ [] := by
  obtain ⟨inside, some_child⟩ := (mem_groupPlaces_iff _ place).mp member
  obtain ⟨label, more, split, first⟩ := line_of_mem_locatedAll path routes place inside some_child
  refine ⟨label, more, split, fun none => ?_⟩
  rw [none] at first
  cases first

theorem joiningAll_cons_of_none {label : String} {route : Route}
    (around : route.after? label = none) (more : List String) (routes : List Route) :
    joiningAll (label :: more) (route :: routes) = joiningAll (label :: more) routes := by
  rw [joiningAll_cons, joining_cons_of_none around, ← joiningAll_cons]

theorem mem_groupPlaces_later {path : List String} {nodes : List Node} {place : List String × Node}
    (member : place ∈ groupPlaces (locatedAll path nodes)) (node : Node) :
    place ∈ groupPlaces (locatedAll path (node :: nodes)) := by
  rw [mem_groupPlaces_iff] at member ⊢
  rw [locatedAll]
  exact ⟨List.mem_append_right _ member.1, member.2⟩

theorem mem_groupPlaces_inside {path : List String} {node : Node} {place : List String × Node}
    (member : place ∈ groupPlaces (locatedAll (path ++ [node.label]) node.children))
    (nodes : List Node) : place ∈ groupPlaces (locatedAll path (node :: nodes)) := by
  obtain ⟨label, line, key, children⟩ := node
  rw [mem_groupPlaces_iff] at member ⊢
  rw [locatedAll, located, List.cons_append]
  exact ⟨List.mem_cons_of_mem _ (List.mem_append_left _ member.1), member.2⟩

theorem exists_group_of_joiningAll (path : List String) (routes : List Route) (label : String)
    (more : List String) (joined : joiningAll (label :: more) routes ≠ []) :
    ∃ place ∈ groupPlaces (locatedAll path (groupBelow path routes)),
      place.1 = path ++ label :: more := by
  fun_induction groupBelow path routes generalizing label more with
  | case1 path => exact absurd rfl joined
  | case2 path line routes ih =>
      rw [joiningAll_cons_of_none rfl] at joined
      exact ih label more joined
  | case3 path other line routes ih =>
      rw [joiningAll_cons_of_none rfl] at joined
      obtain ⟨place, member, there⟩ := ih label more joined
      exact ⟨place, mem_groupPlaces_later member _, there⟩
  | case4 path other next rest line routes ihBelow ihRest =>
      by_cases same : other = label
      · subst other
        cases more with
        | nil =>
            refine ⟨(path ++ [label], ⟨label, line, pathKey (path ++ [label]),
              groupBelow (path ++ [label]) (⟨next :: rest, line⟩ :: joining label routes)⟩),
              ?_, rfl⟩
            rw [mem_groupPlaces_iff, locatedAll, located, List.cons_append]
            exact ⟨List.mem_cons_self, groupBelow_group_ne_nil _ label next rest line routes⟩
        | cons deeper more =>
            rw [joiningAll_cons, joining_cons_self] at joined
            obtain ⟨place, member, there⟩ := ihBelow deeper more joined
            exact ⟨place, mem_groupPlaces_inside member _, by rw [there, ← List.append_cons]⟩
      · have around : Route.after? label ⟨other :: next :: rest, line⟩ = none := if_neg same
        rw [joiningAll_cons_of_none around, joiningAll_cons, ← joining_passing_other same,
          ← joiningAll_cons] at joined
        obtain ⟨place, member, there⟩ := ihRest label more joined
        exact ⟨place, mem_groupPlaces_later member _, there⟩

theorem exists_of_mem_groupPaths {path front : List String} {routes : List Route}
    (member : front ∈ (groupPlaces (locatedAll path (groupBelow path routes))).map Prod.fst) :
    ∃ label more, front = path ++ label :: more ∧ joiningAll (label :: more) routes ≠ [] := by
  obtain ⟨place, inside, rfl⟩ := List.mem_map.mp member
  exact exists_of_mem_groupPlaces inside

theorem nodup_groupPlaces_paths (path : List String) (routes : List Route) :
    ((groupPlaces (locatedAll path (groupBelow path routes))).map Prod.fst).Nodup := by
  fun_induction groupBelow path routes with
  | case1 path =>
      rw [locatedAll]
      exact .nil
  | case2 path line routes ih => exact ih
  | case3 path label line routes ih =>
      rw [locatedAll, located, locatedAll, List.singleton_append, groupPlaces,
        List.filter_cons_of_neg (by simp [Node.isLeaf])]
      exact ih
  | case4 path label next rest line routes ihBelow ihRest =>
      have some_child := groupBelow_group_ne_nil (path ++ [label]) label next rest line routes
      rw [locatedAll, located, List.cons_append, groupPlaces,
        List.filter_cons_of_pos (by simpa [Node.isLeaf] using some_child), List.filter_append,
        List.map_cons, List.map_append, List.nodup_cons, List.nodup_append, List.mem_append, not_or]
      refine ⟨⟨?_, ?_⟩, ihBelow, ihRest, ?_⟩
      · intro below
        obtain ⟨other, more, split, -⟩ := exists_of_mem_groupPaths below
        rw [List.append_assoc] at split
        cases List.append_cancel_left split
      · intro later
        obtain ⟨other, more, split, joined⟩ := exists_of_mem_groupPaths later
        have first := List.head_eq_of_cons_eq (List.append_cancel_left split)
        exact ne_of_mem_passing joined first
      · rintro front below _ later rfl
        obtain ⟨deeper, more, split, -⟩ := exists_of_mem_groupPaths below
        obtain ⟨other, more', split', joined⟩ := exists_of_mem_groupPaths later
        rw [split, List.append_assoc] at split'
        have first := List.head_eq_of_cons_eq (List.append_cancel_left split')
        exact ne_of_mem_passing joined first

/-! ### Nodes with one key -/

variable {pairs : List (String × Int)} {first second : List String × Node}

theorem nodup_entry_lines (lines : (pairs.map Prod.snd).Nodup) :
    (((locatedAll [] (grouping pairs)).filter fun place => place.2.isLeaf).map
      fun place => place.2.line).Nodup := by
  have perm := (entryPlaces_grouping_perm pairs).map Prod.snd
  rw [entryPlaces, List.map_map, List.map_map] at perm
  exact perm.nodup_iff.mpr lines

theorem nodup_locatedAll (lines : (pairs.map Prod.snd).Nodup) :
    (locatedAll [] (grouping pairs)).Nodup := by
  rw [← (List.filter_append_perm (fun place : List String × Node => place.2.isLeaf) _).nodup_iff,
    List.nodup_append]
  refine ⟨(nodup_entry_lines lines).of_map, (nodup_groupPlaces_paths [] _).of_map, ?_⟩
  rintro place entry _ group rfl
  have leaf := (List.mem_filter.mp entry).2
  have branch := (List.mem_filter.mp group).2
  rw [leaf] at branch
  cases branch

theorem keyLabels_ne_nil (member : first ∈ locatedAll [] (grouping pairs)) :
    keyLabels first ≠ [] := by
  obtain ⟨front, split⟩ := exists_front_of_mem_locatedAll first [] _ member
  rw [keyLabels, split]
  split <;> simp

/-- Two nodes on paths with one key are one node, or one is an entry and the other one is the group
that reads like it. -/
theorem eq_or_followsTag_of_key_eq (lines : (pairs.map Prod.snd).Nodup)
    (here : first ∈ locatedAll [] (grouping pairs))
    (there : second ∈ locatedAll [] (grouping pairs)) (onPath : OnPath first)
    (onPath' : OnPath second) (same : first.2.key = second.2.key) :
    first = second ∨ FollowsTag first second ∨ FollowsTag second first := by
  obtain ⟨plain, keyed⟩ :=
    key_eq_of_mem_locatedAll [] _ plainPath_nil (plain_map_ofPair pairs) first here onPath
  obtain ⟨plain', keyed'⟩ :=
    key_eq_of_mem_locatedAll [] _ plainPath_nil (plain_map_ofPair pairs) second there onPath'
  have labels : keyLabels first = keyLabels second := by
    apply pathKey_injective plain plain' (keyLabels_ne_nil here) (keyLabels_ne_nil there)
    rw [← keyed, ← keyed', same]
  unfold keyLabels at labels
  by_cases leaf : first.2.children = [] <;> by_cases leaf' : second.2.children = []
  · rw [if_pos leaf, if_pos leaf'] at labels
    have tags := List.head_eq_of_cons_eq (List.append_inj' labels rfl).2
    refine Or.inl (List.inj_on_of_nodup_map (nodup_entry_lines lines) ?_ ?_
      (lineTag_injective tags))
    · exact List.mem_filter.mpr ⟨here, List.isEmpty_iff.mpr leaf⟩
    · exact List.mem_filter.mpr ⟨there, List.isEmpty_iff.mpr leaf'⟩
  · rw [if_pos leaf, if_neg leaf'] at labels
    exact Or.inr (Or.inl ⟨leaf, leaf', labels.symm⟩)
  · rw [if_neg leaf, if_pos leaf'] at labels
    exact Or.inr (Or.inr ⟨leaf', leaf, labels⟩)
  · rw [if_neg leaf, if_neg leaf'] at labels
    have paths := nodup_groupPlaces_paths [] (pairs.map Route.ofPair)
    refine Or.inl (List.inj_on_of_nodup_map paths ?_ ?_ labels)
    · exact (mem_groupPlaces_iff _ _).mpr ⟨here, leaf⟩
    · exact (mem_groupPlaces_iff _ _).mpr ⟨there, leaf'⟩

theorem key_eq_of_followsTag (here : first ∈ locatedAll [] (grouping pairs))
    (there : second ∈ locatedAll [] (grouping pairs)) (onPath : OnPath first)
    (follows : FollowsTag first second) : first.2.key = second.2.key := by
  obtain ⟨leaf, group, behind⟩ := follows
  obtain ⟨-, keyed⟩ :=
    key_eq_of_mem_locatedAll [] _ plainPath_nil (plain_map_ofPair pairs) first here onPath
  obtain ⟨-, keyed'⟩ :=
    key_eq_of_mem_locatedAll [] _ plainPath_nil (plain_map_ofPair pairs) second there (Or.inr group)
  rw [keyed, keyed', keyLabels, keyLabels, if_pos leaf, if_neg group, behind]

theorem exists_leadsBehind_of_group (member : first ∈ locatedAll [] (grouping pairs))
    (group : first.2.children ≠ []) : ∃ pair ∈ pairs, LeadsBehind first.1 pair.1 := by
  obtain ⟨label, more, split, joined⟩ :=
    exists_of_mem_groupPlaces ((mem_groupPlaces_iff _ first).mpr ⟨member, group⟩)
  obtain ⟨left, behind⟩ := List.exists_mem_of_ne_nil _ joined
  obtain ⟨route, inside, goes⟩ := List.mem_filterMap.mp behind
  obtain ⟨pair, isPair, rfl⟩ := List.mem_map.mp inside
  refine ⟨pair, isPair, ?_⟩
  rw [split, List.nil_append, ← isSome_afterAll?_ofPair_iff pair (List.cons_ne_nil _ _), goes]
  rfl

theorem exists_group_of_leadsBehind {path : List String} (begun : path ≠ []) {pair : String × Int}
    (member : pair ∈ pairs) (behind : LeadsBehind path pair.1) :
    ∃ place ∈ locatedAll [] (grouping pairs), place.2.children ≠ [] ∧ place.1 = path := by
  obtain ⟨label, more, rfl⟩ := List.exists_cons_of_ne_nil begun
  rw [← isSome_afterAll?_ofPair_iff pair begun, Option.isSome_iff_exists] at behind
  obtain ⟨left, goes⟩ := behind
  have joined : joiningAll (label :: more) (pairs.map Route.ofPair) ≠ [] :=
    List.ne_nil_of_mem (List.mem_filterMap.mpr ⟨_, List.mem_map_of_mem member, goes⟩)
  obtain ⟨place, isGroup, there⟩ := exists_group_of_joiningAll [] _ label more joined
  obtain ⟨inside, some_child⟩ := (mem_groupPlaces_iff _ place).mp isGroup
  exact ⟨place, inside, some_child, there⟩

theorem exists_entry_of_pair {pair : String × Int} (member : pair ∈ pairs)
    (cut : Text.contains pair.1 "::" = true) :
    ∃ place ∈ locatedAll [] (grouping pairs), place.2.children = [] ∧
      place.1 = Builder.segments "::" pair.1 ∧ place.2.line = pair.2 := by
  have listed := (entryPlaces_grouping_perm pairs).symm.subset (List.mem_map_of_mem member)
  obtain ⟨place, isEntry, same⟩ := List.mem_map.mp listed
  obtain ⟨inside, leaf⟩ := List.mem_filter.mp isEntry
  rw [Prod.mk.injEq, labels_ofPair cut] at same
  exact ⟨place, inside, List.isEmpty_iff.mp leaf, same.1, same.2⟩

/-- An annotation that goes on behind another one and its line makes a group that reads like the
entry of the other one. -/
theorem exists_followsTag_of_leadsBehind {pair other : String × Int} (member : pair ∈ pairs)
    (cut : Text.contains pair.1 "::" = true) (inside : other ∈ pairs)
    (behind : LeadsBehind (Builder.segments "::" pair.1 ++ [lineTag pair.2]) other.1) :
    ∃ entry ∈ locatedAll [] (grouping pairs), ∃ group ∈ locatedAll [] (grouping pairs),
      OnPath entry ∧ FollowsTag entry group := by
  obtain ⟨entry, here, leaf, path, line⟩ := exists_entry_of_pair member cut
  obtain ⟨group, there, some_child, behindPath⟩ :=
    exists_group_of_leadsBehind (by simp) inside behind
  refine ⟨entry, here, group, there, Or.inl ?_, leaf, some_child, ?_⟩
  · rw [path]
    exact (two_le_length_segments_iff pair.1 (by decide)).mpr cut
  · rw [behindPath, path, line]

theorem exists_leadsBehind_of_followsTag (here : first ∈ locatedAll [] (grouping pairs))
    (there : second ∈ locatedAll [] (grouping pairs)) (onPath : OnPath first)
    (follows : FollowsTag first second) :
    ∃ pair ∈ pairs, Text.contains pair.1 "::" = true ∧ ∃ other ∈ pairs,
      LeadsBehind (Builder.segments "::" pair.1 ++ [lineTag pair.2]) other.1 := by
  obtain ⟨leaf, some_child, behindPath⟩ := follows
  obtain ⟨pair, member, line, -, path⟩ := exists_pair_of_entry here leaf
  obtain ⟨other, inside, behind⟩ := exists_leadsBehind_of_group there some_child
  have long := onPath.resolve_right (absurd leaf)
  rw [behindPath, ← path long, ← line] at behind
  rw [← path long] at long
  exact ⟨pair, member, contains_of_two_le long, other, inside, behind⟩

/-! ### Unique keys -/

/-- The keys of all groups, and of all entries below groups, in the order of a walk. -/
def pathNodeKeys (forest : List Node) : List String :=
  ((locatedAll [] forest).filter fun place => OnPath place).map fun place => place.2.key

/-- On ascending lines, the nodes that paths are made into have different keys exactly if no
annotation goes on behind the path of another one and a label that reads like the line of that one
in the key of its entry. -/
theorem nodup_pathNodeKeys_iff (pairs : List (String × Int)) (ascending : Ascending pairs) :
    ∃ forest, buildForest (.token "::") pairs = .ok forest ∧
      ((pathNodeKeys forest).Nodup ↔
        ∀ pair ∈ pairs, Text.contains pair.1 "::" = true → ∀ other ∈ pairs,
          ¬ LeadsBehind (Builder.segments "::" pair.1 ++ [lineTag pair.2]) other.1) := by
  have nonempty : ("::" : String) ≠ "" := by decide
  obtain ⟨builder, built, real⟩ := buildForest_eq_forest nonempty pairs
  rw [real.forest_eq_grouping] at built
  refine ⟨grouping pairs, built, ?_⟩
  have lines := ascending.nodup_lines
  rw [pathNodeKeys, List.nodup_map_iff_inj_on ((nodup_locatedAll lines).filter _)]
  simp only [List.mem_filter, decide_eq_true_eq]
  constructor
  · intro injective pair member cut other inside behind
    obtain ⟨entry, here, group, there, onPath, follows⟩ :=
      exists_followsTag_of_leadsBehind member cut inside behind
    have same := injective entry ⟨here, onPath⟩ group ⟨there, Or.inr follows.2.1⟩
      (key_eq_of_followsTag here there onPath follows)
    exact follows.2.1 (same ▸ follows.1)
  · intro clear
    have never : ∀ entry group, entry ∈ locatedAll [] (grouping pairs) →
        group ∈ locatedAll [] (grouping pairs) → OnPath entry → ¬ FollowsTag entry group := by
      intro entry group here there onPath follows
      obtain ⟨pair, member, cut, other, inside, behind⟩ :=
        exists_leadsBehind_of_followsTag here there onPath follows
      exact clear pair member cut other inside behind
    intro first here second there same
    rcases eq_or_followsTag_of_key_eq lines here.1 there.1 here.2 there.2 same with
      equal | follows | follows
    · exact equal
    · exact absurd follows (never first second here.1 there.1 here.2)
    · exact absurd follows (never second first there.1 here.1 there.2)

theorem nodup_pathNodeKeys_iff_near_miss :
    Ascending [("A::x", 5), ("A::x::line number 6::y", 6)] ∧
    ∃ forest, buildForest (.token "::") [("A::x", 5), ("A::x::line number 6::y", 6)] = .ok forest ∧
      ((pathNodeKeys forest).Nodup ↔
        ∀ pair ∈ [("A::x", 5), ("A::x::line number 6::y", 6)],
          Text.contains pair.1 "::" = true →
          ∀ other ∈ [("A::x", (5 : Int)), ("A::x::line number 6::y", 6)],
            ¬ LeadsBehind (Builder.segments "::" pair.1 ++ [lineTag pair.2]) other.1) :=
  ⟨by decide, nodup_pathNodeKeys_iff _ (by decide)⟩

/-- The entry and the group that goes on behind it with its line have one key. -/
theorem not_nodup_pathNodeKeys_of_line_label : ∃ forest,
    buildForest (.token "::") [("A::x", 5), ("A::x::line number 5::y", 6)] = .ok forest ∧
      ¬ (pathNodeKeys forest).Nodup := by
  refine ⟨[⟨"A", 5, "A", [⟨"x", 5, "A :: x :: line number 5", []⟩,
    ⟨"x", 6, "A :: x", [⟨"line number 5", 6, "A :: x :: line number 5",
      [⟨"y", 6, "A :: x :: line number 5 :: y :: line number 6", []⟩]⟩]⟩]⟩], ?_, ?_⟩
  · decide +kernel
  · decide +kernel

/-! ### Siblings -/

theorem nodup_keys_of_sublist (lines : (pairs.map Prod.snd).Nodup) (path : List String)
    (nodes : List Node) (listed : (placesAt path nodes).Sublist (locatedAll [] (grouping pairs)))
    (onPath : ∀ place ∈ placesAt path nodes, OnPath place) : (nodes.map Node.key).Nodup := by
  have same_length : ∀ place ∈ placesAt path nodes, place.1.length = path.length + 1 := by
    intro place member
    obtain ⟨node, -, rfl⟩ := List.mem_map.mp member
    exact List.length_append
  have never : ∀ first ∈ placesAt path nodes, ∀ second ∈ placesAt path nodes,
      ¬ FollowsTag first second := by
    intro first here second there follows
    have lengths := congrArg List.length follows.2.2
    rw [List.length_append, same_length first here, same_length second there] at lengths
    exact absurd lengths.symm (Nat.succ_ne_self _)
  have keys : nodes.map Node.key = (placesAt path nodes).map fun place => place.2.key := by
    rw [placesAt, List.map_map]
    rfl
  rw [keys]
  refine List.Nodup.map_on ?_ (listed.nodup (nodup_locatedAll lines))
  intro first here second there same
  rcases eq_or_followsTag_of_key_eq lines (listed.subset here) (listed.subset there)
    (onPath first here) (onPath second there) same with equal | follows | follows
  · exact equal
  · exact absurd follows (never first here second there)
  · exact absurd follows (never second there first here)

/-- Annotations on different lines never make two children of one node with one key, nor two groups
at the top. -/
theorem nodup_keys_of_siblings (pairs : List (String × Int))
    (lines : (pairs.map Prod.snd).Nodup) :
    ∃ forest, buildForest (.token "::") pairs = .ok forest ∧
      (∀ node ∈ visitsAll forest, (node.children.map Node.key).Nodup) ∧
      ((forest.filter fun node => !node.isLeaf).map Node.key).Nodup := by
  have nonempty : ("::" : String) ≠ "" := by decide
  obtain ⟨builder, built, real⟩ := buildForest_eq_forest nonempty pairs
  rw [real.forest_eq_grouping] at built
  refine ⟨grouping pairs, built, ?_, ?_⟩
  · intro node visited
    rw [← map_snd_locatedAll []] at visited
    obtain ⟨place, member, rfl⟩ := List.mem_map.mp visited
    apply nodup_keys_of_sublist lines place.1 _
      (placesAt_children_sublist_locatedAll place [] _ member)
    intro child inside
    obtain ⟨front, split⟩ := exists_front_of_mem_locatedAll place [] _ member
    obtain ⟨under, -, rfl⟩ := List.mem_map.mp inside
    apply Or.inl
    rw [split]
    simp
  · apply nodup_keys_of_sublist lines []
    · exact ((List.filter_sublist).map _).trans (placesAt_sublist_locatedAll [] _)
    · intro root inside
      obtain ⟨node, isGroup, rfl⟩ := List.mem_map.mp inside
      have some_child := (List.mem_filter.mp isGroup).2
      rw [Bool.not_eq_true', Node.isLeaf, List.isEmpty_eq_false_iff] at some_child
      exact Or.inr some_child

theorem nodup_keys_of_siblings_like_keys :
    ([("A::x", (7 : Int)), ("A::x :: line number 7::y", 2), ("A::x", 3), ("A", 5)].map
      Prod.snd).Nodup ∧
    ∃ forest, buildForest (.token "::")
        [("A::x", 7), ("A::x :: line number 7::y", 2), ("A::x", 3), ("A", 5)] = .ok forest ∧
      (∀ node ∈ visitsAll forest, (node.children.map Node.key).Nodup) ∧
      ((forest.filter fun node => !node.isLeaf).map Node.key).Nodup :=
  ⟨by decide, nodup_keys_of_siblings _ (by decide)⟩

end CommentOutline.Outline
