import CommentOutline.Proofs.Outline.Agreement
import CommentOutline.Proofs.Outline.Origin

set_option autoImplicit false

/-! An outline read back. Its entries, each with the labels on its path and its line, and put in the
order of their lines, are the annotations that it was built from, up to blanks around the labels of
a path. What is read back builds the same outline again. -/

namespace CommentOutline.Outline

open Route

def noLater (first second : String × Int) : Bool := first.2 ≤ second.2

/-- The annotations of a forest: for every node without children the labels on its path, joined as
in keys, and its line, in the order of the lines. -/
def readBack (forest : List Node) : List (String × Int) :=
  ((entryPlaces (locatedAll [] forest)).map fun place =>
    (pathKey place.1, place.2)).mergeSort noLater

/-- The same annotation with one blank on each side of the separators on its path. -/
def normal (pair : String × Int) : String × Int :=
  (if Text.contains pair.1 "::" then pathKey (Builder.segments "::" pair.1) else pair.1, pair.2)

theorem normal_eq_pathKey (pair : String × Int) :
    normal pair = (pathKey (ofPair pair).labels, pair.2) := by
  cases cut : Text.contains pair.1 "::" with
  | true => rw [normal, if_pos cut, labels_ofPair cut]
  | false =>
      rw [normal, if_neg (Bool.eq_false_iff.mp cut), labels_ofPair_flat cut, pathKey_singleton]

theorem line_normal (pair : String × Int) : (normal pair).2 = pair.2 :=
  rfl

theorem ofPair_normal (pair : String × Int) : ofPair (normal pair) = ofPair pair := by
  cases cut : Text.contains pair.1 "::" with
  | false => rw [normal, if_neg (Bool.eq_false_iff.mp cut)]
  | true =>
      have again : Builder.segments "::" (normal pair).1 = Builder.segments "::" pair.1 := by
        rw [normal, if_pos cut]
        exact segments_pathKey_segments pair.1
      have stillCut : Text.contains (normal pair).1 "::" = true := by
        rw [← two_le_length_segments_iff _ (by decide), again]
        exact (two_le_length_segments_iff pair.1 (by decide)).mpr cut
      rw [ofPair, if_pos stillCut, again, ofPair, if_pos cut, line_normal]

theorem grouping_map_normal (pairs : List (String × Int)) :
    grouping (pairs.map normal) = grouping pairs := by
  rw [grouping, grouping, List.map_map]
  congr 2
  funext pair
  exact ofPair_normal pair

theorem Ascending.map_normal {pairs : List (String × Int)} (ascending : Ascending pairs) :
    Ascending (pairs.map normal) :=
  List.pairwise_map.mpr ascending

theorem mergeSort_noLater_pairwise (pairs : List (String × Int)) :
    (pairs.mergeSort noLater).Pairwise fun first second => first.2 ≤ second.2 := by
  refine (List.pairwise_mergeSort ?_ ?_ pairs).imp of_decide_eq_true
  · intro first second third lower upper
    exact decide_eq_true (Int.le_trans (of_decide_eq_true lower) (of_decide_eq_true upper))
  · intro first second
    rw [Bool.or_eq_true]
    exact (Int.le_total first.2 second.2).imp decide_eq_true decide_eq_true

theorem Ascending.mergeSort_eq {pairs listed : List (String × Int)} (ascending : Ascending pairs)
    (perm : listed.Perm pairs) : listed.mergeSort noLater = pairs := by
  have same := (List.mergeSort_perm listed noLater).trans perm
  refine same.eq_of_pairwise ?_ (mergeSort_noLater_pairwise listed) (ascending.imp Int.le_of_lt)
  intro first second inside member lower upper
  exact ascending.eq_of_line_eq (same.subset inside) member (Int.le_antisymm lower upper)

theorem readBack_grouping {pairs : List (String × Int)} (ascending : Ascending pairs) :
    readBack (grouping pairs) = pairs.map normal := by
  apply ascending.map_normal.mergeSort_eq
  have perm := (entryPlaces_grouping_perm pairs).map fun place => (pathKey place.1, place.2)
  rw [List.map_map] at perm
  refine perm.trans (List.Perm.of_eq ?_)
  apply List.map_congr_left
  intro pair _
  exact (normal_eq_pathKey pair).symm

/-- The outline of annotations on ascending lines tells them, in their normal form, and it is the
outline of what it tells. -/
theorem readBack_buildForest (pairs : List (String × Int)) (ascending : Ascending pairs) :
    ∃ forest, buildForest (.token "::") pairs = .ok forest ∧
      readBack forest = pairs.map normal ∧
      buildForest (.token "::") (readBack forest) = .ok forest := by
  have built : ∀ given, buildForest (.token "::") given = .ok (grouping given) := by
    intro given
    have nonempty : ("::" : String) ≠ "" := by decide
    obtain ⟨builder, built, real⟩ := buildForest_eq_forest nonempty given
    rw [built, real.forest_eq_grouping]
  refine ⟨grouping pairs, built pairs, readBack_grouping ascending, ?_⟩
  rw [readBack_grouping ascending, built, grouping_map_normal]

/-- Groups that interleave, blanks around labels, an empty label and one that begins with a colon. -/
theorem readBack_buildForest_interleaved :
    Ascending [("G::a", 0), (" flat ", 1), ("H:: ::b", 3), (" G :::c", 4)] ∧
    ∃ forest, buildForest (.token "::")
        [("G::a", 0), (" flat ", 1), ("H:: ::b", 3), (" G :::c", 4)] = .ok forest ∧
      readBack forest = [("G :: a", 0), (" flat ", 1), ("H ::  :: b", 3), ("G :: :c", 4)] ∧
      buildForest (.token "::") (readBack forest) = .ok forest := by
  have ascending : Ascending [("G::a", 0), (" flat ", 1), ("H:: ::b", 3), (" G :::c", 4)] := by
    decide
  obtain ⟨forest, built, told, again⟩ := readBack_buildForest _ ascending
  refine ⟨ascending, forest, built, told.trans ?_, again⟩
  decide +kernel

end CommentOutline.Outline
