import CommentOutline.Proofs.Outline.Path

set_option autoImplicit false

/-! What keys stand for. Made label by label, the key of a group is its labels with the joiner
between any two, and that of an entry is the key of a group one label further on. So keys of plain
labels tell the path, and keys of entries the line too; the one way in which a group and an entry
share a key is a label that reads like a line. -/

namespace CommentOutline.Outline

/-- The key of the group at the end of a path, made label by label from the top. -/
def groupKey : (path : List String) → String
  | [] => ""
  | top :: rest => rest.foldl containerKey top

/-- The key of the entry at the end of a path, made below the group of all labels but the last. -/
def lineKey (path : List String) (line : Int) : String :=
  leafKey (groupKey path.dropLast) (path.getLastD "") line

theorem groupKey_eq_pathKey {path : List String} (begun : path ≠ []) :
    groupKey path = pathKey path := by
  cases path with
  | nil => exact absurd rfl begun
  | cons top rest => exact (pathKey_cons top rest).symm

theorem lineKey_eq_pathKey {path : List String} (below : 2 ≤ path.length) (line : Int) :
    lineKey path line = pathKey (path ++ [lineTag line]) := by
  obtain ⟨front, label, rfl⟩ : ∃ front label, path = front ++ [label] :=
    (List.eq_nil_or_concat' path).resolve_left (by rintro rfl; exact absurd below (by decide))
  have begun : front ≠ [] := by
    rintro rfl
    exact absurd below (Nat.not_succ_le_self 1)
  rw [lineKey, List.dropLast_concat, List.getLastD_concat, groupKey_eq_pathKey begun,
    leafKey_pathKey front label line begun, List.append_assoc]
  rfl

theorem lineTag_injective {line line' : Int} (same : lineTag line = lineTag line') :
    line = line' := by
  unfold lineTag at same
  rw [String.append_right_inj] at same
  exact repr_inj same

theorem PlainPath.concat_lineTag {path : List String} (plain : PlainPath path) (line : Int) :
    PlainPath (path ++ [lineTag line]) :=
  plain.concat (lineTag_plain line)

variable {p q : List String}

theorem pathKey_inj (plainP : PlainPath p) (plainQ : PlainPath q) (begunP : p ≠ [])
    (begunQ : q ≠ []) : pathKey p = pathKey q ↔ p = q :=
  ⟨pathKey_injective plainP plainQ begunP begunQ, congrArg pathKey⟩

theorem groupKey_inj (plainP : PlainPath p) (plainQ : PlainPath q) (begunP : p ≠ [])
    (begunQ : q ≠ []) : groupKey p = groupKey q ↔ p = q := by
  rw [groupKey_eq_pathKey begunP, groupKey_eq_pathKey begunQ]
  exact pathKey_inj plainP plainQ begunP begunQ

theorem lineKey_inj (plainP : PlainPath p) (plainQ : PlainPath q) (belowP : 2 ≤ p.length)
    (belowQ : 2 ≤ q.length) (m n : Int) : lineKey p m = lineKey q n ↔ p = q ∧ m = n := by
  rw [lineKey_eq_pathKey belowP, lineKey_eq_pathKey belowQ, pathKey_inj (plainP.concat_lineTag m)
    (plainQ.concat_lineTag n) (List.concat_ne_nil _ _) (List.concat_ne_nil _ _)]
  constructor
  · intro same
    obtain ⟨paths, tags⟩ := List.append_inj' same rfl
    exact ⟨paths, lineTag_injective (List.head_eq_of_cons_eq tags)⟩
  · rintro ⟨rfl, rfl⟩
    rfl

/-- An entry and a group share a key only if the group follows the labels of the entry with its
line. -/
theorem lineKey_eq_groupKey_iff (plainP : PlainPath p) (plainQ : PlainPath q)
    (belowP : 2 ≤ p.length) (begunQ : q ≠ []) (m : Int) :
    lineKey p m = groupKey q ↔ q = p ++ [lineTag m] := by
  rw [lineKey_eq_pathKey belowP, groupKey_eq_pathKey begunQ,
    pathKey_inj (plainP.concat_lineTag m) plainQ (List.concat_ne_nil _ _) begunQ]
  exact eq_comm

theorem segments_groupKey (plain : PlainPath p) (begun : p ≠ [])
    (stripped : ∀ label ∈ p, Text.strip label = label) :
    Builder.segments "::" (groupKey p) = p := by
  rw [groupKey_eq_pathKey begun, segments_pathKey plain begun]
  exact (List.map_congr_left stripped).trans (List.map_id p)

/-- The keys of paths of plain labels stand for one thing each: a group for its path, an entry for
its path and its line, and both together only where a group follows the labels of an entry with its
line. The labels can be read off the key of a group. -/
theorem keys_tell_paths (p q : List String) (m n : Int) (plainP : PlainPath p)
    (plainQ : PlainPath q) (begunP : p ≠ []) (begunQ : q ≠ []) :
    (groupKey p = groupKey q ↔ p = q) ∧
      (2 ≤ p.length → 2 ≤ q.length → (lineKey p m = lineKey q n ↔ p = q ∧ m = n)) ∧
      (2 ≤ p.length → (lineKey p m = groupKey q ↔ q = p ++ ["line number " ++ m.repr])) ∧
      ((∀ label ∈ p, Text.strip label = label) → Builder.segments "::" (groupKey p) = p) :=
  ⟨groupKey_inj plainP plainQ begunP begunQ,
    fun belowP belowQ => lineKey_inj plainP plainQ belowP belowQ m n,
    fun belowP => lineKey_eq_groupKey_iff plainP plainQ belowP begunQ m,
    segments_groupKey plainP begunP⟩

/-- A colon at either end of a label, an empty label and a line below zero; the group has the key of
the entry. -/
theorem keys_tell_paths_colons :
    lineKey ["a:", "", ":b"] (-3) = groupKey ["a:", "", ":b", "line number -3"] ∧
      lineKey ["a:", "", ":b"] (-3) ≠ lineKey ["a:", "", ":b"] 3 ∧
      Builder.segments "::" (groupKey ["a:", "", ":b"]) = ["a:", "", ":b"] := by
  have plain : PlainPath ["a:", "", ":b"] := by
    simp only [PlainPath, List.forall_mem_cons, List.not_mem_nil, false_implies, implies_true,
      and_true, Plain]
    decide
  have plainGroup : PlainPath ["a:", "", ":b", "line number -3"] := by
    have tag : "line number -3" = lineTag (-3) := by decide
    rw [tag]
    exact plain.concat (lineTag_plain (-3))
  have entry := keys_tell_paths ["a:", "", ":b"] ["a:", "", ":b", "line number -3"] (-3) 3 plain
    plainGroup (by decide) (by decide)
  have entries := keys_tell_paths ["a:", "", ":b"] ["a:", "", ":b"] (-3) 3 plain plain (by decide)
    (by decide)
  refine ⟨(entry.2.2.1 (by decide)).mpr (by decide), fun same => ?_, entry.2.2.2 (by decide)⟩
  exact absurd ((entries.2.1 (by decide) (by decide)).mp same).2 (by decide)

end CommentOutline.Outline
