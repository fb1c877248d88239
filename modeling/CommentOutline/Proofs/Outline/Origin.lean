import CommentOutline.Proofs.Outline.Ascending
import CommentOutline.Proofs.Outline.Located

set_option autoImplicit false

/-! The annotations behind the nodes of a grouped forest. An entry comes from one annotation, and a
group from the first one that goes on behind its path. -/

namespace CommentOutline.Outline

open Route

/-- The labels of an annotation go on behind a path. -/
def LeadsBehind (path : List String) (raw : String) : Prop :=
  ∃ left, left ≠ [] ∧ Builder.segments "::" raw = path ++ left

theorem contains_of_two_le {raw : String} (long : 1 < (Builder.segments "::" raw).length) :
    Text.contains raw "::" = true :=
  (two_le_length_segments_iff raw (by decide)).mp long

theorem LeadsBehind.contains {path : List String} {raw : String} (behind : LeadsBehind path raw)
    (begun : path ≠ []) : Text.contains raw "::" = true := by
  obtain ⟨left, more, split⟩ := behind
  apply contains_of_two_le
  have front := List.length_pos_iff.mpr begun
  have back := List.length_pos_iff.mpr more
  rw [split, List.length_append]
  omega

theorem isSome_afterAll?_ofPair_iff (pair : String × Int) {path : List String} (begun : path ≠ []) :
    ((Route.ofPair pair).afterAll? path).isSome = true ↔ LeadsBehind path pair.1 := by
  constructor
  · intro known
    obtain ⟨left, behind⟩ := Option.isSome_iff_exists.mp known
    obtain ⟨split, more, -⟩ := (afterAll?_eq_some_iff path _ left (going_ofPair pair)).mp behind
    cases cut : Text.contains pair.1 "::" with
    | true =>
        rw [labels_ofPair cut] at split
        exact ⟨left.labels, more, split⟩
    | false =>
        have lengths := congrArg List.length split
        have front := List.length_pos_iff.mpr begun
        have back := List.length_pos_iff.mpr more
        rw [labels_ofPair_flat cut, List.length_append, List.length_singleton] at lengths
        omega
  · intro behind
    have cut := behind.contains begun
    obtain ⟨left, more, split⟩ := behind
    rw [Option.isSome_iff_exists]
    refine ⟨⟨left, pair.2⟩, (afterAll?_eq_some_iff path _ _ (going_ofPair pair)).mpr ⟨?_, more, ?_⟩⟩
    · rw [labels_ofPair cut, split]
    · exact (line_ofPair pair).symm

theorem entryPlaces_grouping_perm (pairs : List (String × Int)) :
    (entryPlaces (locatedAll [] (grouping pairs))).Perm
      (pairs.map fun pair => ((Route.ofPair pair).labels, pair.2)) := by
  have perm := entryPlaces_groupBelow_perm [] (pairs.map Route.ofPair) (by
    intro route member
    obtain ⟨pair, -, rfl⟩ := List.mem_map.mp member
    exact going_ofPair pair)
  have same : (pairs.map Route.ofPair).map (place []) =
      pairs.map fun pair => ((Route.ofPair pair).labels, pair.2) := by
    rw [List.map_map]
    apply List.map_congr_left
    intro pair _
    rw [Function.comp_apply, place, line_ofPair, List.nil_append]
  rw [same] at perm
  exact perm

theorem exists_pair_of_entry {pairs : List (String × Int)} {place : List String × Node}
    (member : place ∈ locatedAll [] (grouping pairs)) (childless : place.2.children = []) :
    ∃ pair ∈ pairs, pair.2 = place.2.line ∧
      (place.1.length = 1 → Text.contains pair.1 "::" = false ∧ place.2.label = pair.1) ∧
      (1 < place.1.length → Builder.segments "::" pair.1 = place.1) := by
  have listed := (entryPlaces_grouping_perm pairs).subset (mem_entryPlaces member childless)
  obtain ⟨pair, inside, same⟩ := List.mem_map.mp listed
  rw [Prod.mk.injEq] at same
  obtain ⟨labels, sameLine⟩ := same
  refine ⟨pair, inside, sameLine, ?_⟩
  cases cut : Text.contains pair.1 "::" with
  | true =>
      have long := (two_le_length_segments_iff pair.1 (by decide)).mpr cut
      rw [labels_ofPair cut] at labels
      rw [labels] at long
      exact ⟨fun single => absurd long (by omega), fun _ => labels⟩
  | false =>
      rw [labels_ofPair_flat cut] at labels
      obtain ⟨front, ends⟩ := exists_front_of_mem_locatedAll place [] _ member
      rw [← labels] at ends ⊢
      obtain ⟨-, last⟩ := List.append_inj' ((List.nil_append [pair.1]).trans ends) rfl
      refine ⟨fun _ => ⟨rfl, (List.head_eq_of_cons_eq last).symm⟩, fun long => ?_⟩
      exact absurd long (Nat.lt_irrefl 1)

/-- A group comes from an annotation on its line, and no annotation before that goes on behind its
path. -/
theorem exists_pair_of_group {pairs : List (String × Int)}
    (ascending : Ascending pairs) {place : List String × Node}
    (member : place ∈ locatedAll [] (grouping pairs))
    (some_child : place.2.children ≠ []) :
    ∃ pair ∈ pairs, pair.2 = place.2.line ∧ LeadsBehind place.1 pair.1 ∧
      ∀ other ∈ pairs, other.2 < place.2.line → ¬ LeadsBehind place.1 other.1 := by
  obtain ⟨label, more, split, first⟩ := line_of_mem_locatedAll [] _ place member some_child
  have begun : label :: more ≠ [] := List.cons_ne_nil _ _
  rw [List.nil_append] at split
  rw [← split] at first begun
  rw [joiningAll, List.head?_filterMap] at first
  obtain ⟨left, found, sameLine⟩ := Option.map_eq_some_iff.mp first
  obtain ⟨before, route, after, routes, behind, earlier⟩ := List.findSome?_eq_some_iff.mp found
  obtain ⟨pairsBefore, rest, rfl, rfl, tail⟩ := List.map_eq_append_iff.mp routes
  obtain ⟨pair, pairsAfter, rfl, rfl, rfl⟩ := List.map_eq_cons_iff.mp tail
  have here : pair.2 = place.2.line := by
    obtain ⟨-, -, lineLeft⟩ := (afterAll?_eq_some_iff _ _ left (going_ofPair pair)).mp behind
    rw [← sameLine, lineLeft, line_ofPair]
  refine ⟨pair, List.mem_append_right _ List.mem_cons_self, here, ?_, ?_⟩
  · rw [← isSome_afterAll?_ofPair_iff pair begun, behind]
    rfl
  · intro other inside lower
    rw [← here] at lower
    rcases List.mem_append.mp inside with front | back
    · rw [← isSome_afterAll?_ofPair_iff other begun,
        earlier _ (List.mem_map_of_mem front)]
      exact Bool.false_ne_true
    · exfalso
      rcases List.mem_cons.mp back with rfl | later
      · exact absurd lower (Int.lt_irrefl _)
      · have ordered := List.rel_of_pairwise_cons (List.pairwise_append.mp ascending).2.1 later
        omega

theorem countP_entries_eq_one {pairs : List (String × Int)}
    (ascending : Ascending pairs) {pair : String × Int} (member : pair ∈ pairs) :
    (locatedAll [] (grouping pairs)).countP
      (fun place => place.2.isLeaf && place.2.line == pair.2) = 1 := by
  have lines : ((entryPlaces (locatedAll [] (grouping pairs))).map Prod.snd).Perm
      (pairs.map Prod.snd) := by
    have perm := (entryPlaces_grouping_perm pairs).map Prod.snd
    rw [List.map_map] at perm
    exact perm
  have one := List.count_eq_one_of_mem ascending.nodup_lines (List.mem_map_of_mem member)
  rw [← lines.count_eq, entryPlaces, List.map_map, List.count, List.countP_map,
    List.countP_filter] at one
  rw [← one]
  apply List.countP_congr
  intro place _
  simp only [Function.comp_apply, Bool.and_comm]

end CommentOutline.Outline
