import CommentOutline.Proofs.Outline.Ascending
import CommentOutline.Proofs.Outline.Reach

set_option autoImplicit false

/-! Which annotations an outline shows. Each annotation becomes an entry, but an entry below a group
that no root leads to is lost. That takes a label which reads like the end of the key of an
entry: the group of that label is taken for the entry, and is not put below its parent. -/

namespace CommentOutline.Outline

def entryLabel (separator raw : String) : String :=
  if Text.contains raw separator then ((Builder.segments separator raw).getLast?).getD raw else raw

/-- The key of the group that an annotation's entry stands below. -/
def entryGroup (separator raw : String) : String :=
  pathKey (Builder.segments separator raw).dropLast

def Visible (separator : String) (forest : List Node) (pair : String × Int) : Prop :=
  ∃ node ∈ visitsAll forest,
    node.children = [] ∧ node.line = pair.2 ∧ node.label = entryLabel separator pair.1

/-! ### The steps of annotations -/

theorem entry_mem_stepsBelow_iff (line : Int) (done : List String) (begun : done ≠ [])
    (labels : List String) (parent leaf : String) (number : Int) :
    .entry parent leaf number ∈ stepsBelow line (pathKey done) labels ↔
      ∃ mid, labels = mid ++ [leaf] ∧ parent = pathKey (done ++ mid) ∧ number = line := by
  induction labels generalizing done with
  | nil => simp [stepsBelow]
  | cons label rest ih =>
      cases rest with
      | nil =>
          simp only [stepsBelow, List.mem_singleton, Step.entry.injEq]
          constructor
          · intro given
            rcases given with ⟨rfl, rfl, rfl⟩
            exact ⟨[], rfl, by rw [List.append_nil], rfl⟩
          · intro given
            rcases given with ⟨mid, split, rfl, rfl⟩
            obtain ⟨rfl, last⟩ := List.append_inj' ((List.nil_append [label]).trans split) rfl
            rw [List.append_nil]
            exact ⟨rfl, (List.head_eq_of_cons_eq last).symm, rfl⟩
      | cons next rest =>
          rw [stepsBelow_cons_cons line done label next rest begun, List.mem_cons,
            ih _ (List.append_ne_nil_of_right_ne_nil _ (List.cons_ne_nil _ _))]
          simp only [reduceCtorEq, false_or]
          constructor
          · intro given
            rcases given with ⟨mid, split, rfl, rfl⟩
            exact ⟨label :: mid, by rw [split, List.cons_append], by rw [← List.append_cons], rfl⟩
          · intro given
            rcases given with ⟨mid, split, rfl, rfl⟩
            cases mid with
            | nil => cases split
            | cons first mid =>
                rw [List.cons_append, List.cons.injEq] at split
                rw [← split.1]
                exact ⟨mid, split.2, by rw [← List.append_cons], rfl⟩

theorem entry_mem_stepsOf_iff {separator : String} (nonempty : separator ≠ "")
    (pair : String × Int) (parent leaf : String) (number : Int) :
    .entry parent leaf number ∈ stepsOf separator pair ↔
      Text.contains pair.1 separator = true ∧ parent = entryGroup separator pair.1 ∧
        leaf = entryLabel separator pair.1 ∧ number = pair.2 := by
  rw [stepsOf, entryGroup, entryLabel]
  split
  · rename_i cut
    obtain ⟨top, next, rest, labels⟩ := exists_segments_of_contains nonempty cut
    have inside := entry_mem_stepsBelow_iff pair.2 [top] (List.cons_ne_nil _ _)
      (next :: rest) parent leaf number
    rw [pathKey_singleton] at inside
    rw [labels, pathSteps, List.mem_cons, inside]
    simp only [reduceCtorEq, false_or, cut, true_and]
    constructor
    · intro given
      rcases given with ⟨mid, split, rfl, rfl⟩
      rw [split, ← List.cons_append, List.dropLast_concat, List.getLast?_concat]
      exact ⟨rfl, rfl, rfl⟩
    · intro given
      rcases given with ⟨rfl, rfl, rfl⟩
      refine ⟨(next :: rest).dropLast, ?_, rfl, rfl⟩
      rw [List.getLast?_cons_cons, List.getLast?_eq_some_getLast (List.cons_ne_nil _ _),
        Option.getD_some, List.dropLast_append_getLast]
  · rename_i flat
    simp [flat]

theorem flat_mem_stepsOf_iff (separator : String) (pair : String × Int) (label : String)
    (line : Int) :
    .flat label line ∈ stepsOf separator pair ↔
      Text.contains pair.1 separator = false ∧ label = pair.1 ∧ line = pair.2 := by
  have absent : ∀ (parent : String) (labels : List String),
      .flat label line ∉ stepsBelow pair.2 parent labels := by
    intro parent labels
    fun_induction stepsBelow pair.2 parent labels with
    | case1 => exact List.not_mem_nil
    | case2 => simp
    | case3 parent label next rest ih => simpa using ih
  rw [stepsOf]
  split
  · rename_i cut
    rw [cut]
    cases Builder.segments separator pair.1 with
    | nil => simp [pathSteps]
    | cons top rest => simpa [pathSteps] using absent top rest
  · rename_i flat
    rw [Bool.eq_false_iff.mpr flat, List.mem_singleton, Step.flat.injEq]
    simp only [true_and]

/-! ### Which annotations are visible -/

/-- On ascending lines, a flat annotation is visible, and a path is visible exactly when the group
that its entry stands below is reached. -/
theorem Builder.Realizes.visible_iff {builder : Builder} {separator : String}
    {pairs : List (String × Int)} (real : builder.Realizes (.ofPairs separator pairs))
    (nonempty : separator ≠ "") (ascending : Ascending pairs)
    {pair : String × Int} (member : pair ∈ pairs) :
    Visible separator builder.forest pair ↔
      Text.contains pair.1 separator = false ∨
        Reached (pairs.flatMap (stepsOf separator)) (entryGroup separator pair.1) := by
  have childless := real.childless_iff (Plan.ofPairs_full nonempty pairs)
  constructor
  · intro given
    rcases given with ⟨node, visited, bare, sameLine, -⟩
    obtain ⟨brief, shown, rfl⟩ := (childless node).mp ⟨visited, bare⟩
    rcases (Plan.shown_entry_iff _ brief).mp shown with
      ⟨label, line, isStep, rfl⟩ | ⟨parent, label, line, reached, isStep, rfl⟩
    · obtain ⟨other, inside, isStep⟩ := List.mem_flatMap.mp isStep
      obtain ⟨flat, rfl, rfl⟩ := (flat_mem_stepsOf_iff separator other label line).mp isStep
      rw [ascending.eq_of_line_eq inside member sameLine] at flat
      exact Or.inl flat
    · obtain ⟨other, inside, isStep⟩ := List.mem_flatMap.mp isStep
      obtain ⟨cut, rfl, rfl, rfl⟩ :=
        (entry_mem_stepsOf_iff nonempty other parent label line).mp isStep
      rw [ascending.eq_of_line_eq inside member sameLine] at reached
      exact Or.inr reached
  · intro found
    have shown_entry : ∃ key, (Plan.ofPairs separator pairs).Shown
        (.entry ⟨entryLabel separator pair.1, pair.2, key⟩) := by
      by_cases cut : Text.contains pair.1 separator = true
      · have reached := found.resolve_left (by rw [cut]; exact Bool.noConfusion)
        refine ⟨_, (Plan.shown_entry_iff _ _).mpr (Or.inr ⟨_, _, _, reached, ?_, rfl⟩)⟩
        exact List.mem_flatMap.mpr
          ⟨pair, member, (entry_mem_stepsOf_iff nonempty pair _ _ _).mpr ⟨cut, rfl, rfl, rfl⟩⟩
      · have flat := Bool.eq_false_iff.mpr cut
        refine ⟨_, (Plan.shown_entry_iff _ _).mpr (Or.inl ⟨_, _, ?_, rfl⟩)⟩
        rw [entryLabel, if_neg cut]
        exact List.mem_flatMap.mpr
          ⟨pair, member, (flat_mem_stepsOf_iff separator pair _ _).mpr ⟨flat, rfl, rfl⟩⟩
    obtain ⟨key, shown⟩ := shown_entry
    obtain ⟨visited, bare⟩ := (childless _).mpr ⟨_, shown, rfl⟩
    exact ⟨_, visited, bare, rfl, rfl⟩

/-! ### Annotations that are never lost -/

/-- A label that does not read like the end of the key of an entry. -/
def TagFree (label : String) : Prop :=
  ∀ (leaf : String) (number : Int), label ≠ leaf ++ keyJoiner ++ leafTag ++ number.repr

theorem TagFree.leafKey_ne {label : String} (free : TagFree label) (parent leaf : String)
    (number : Int) : leafKey parent leaf number ≠ containerKey parent label := by
  intro same
  apply free leaf number
  rw [leafKey, containerKey, containerKey] at same
  simp only [String.append_assoc, String.append_right_inj] at same
  rw [← same]
  simp only [String.append_assoc]

theorem tagFree_of_mem_segments {separator raw label : String} (nonempty : separator ≠ "")
    (part : Text.contains (keyJoiner ++ leafTag) separator = true)
    (member : label ∈ Builder.segments separator raw) : TagFree label := by
  rintro leaf number rfl
  have absent := contains_of_mem_segments nonempty member
  rw [Text.contains_eq_false_iff] at absent
  rw [Text.contains_iff_infix] at part
  apply absent
  refine part.trans ⟨leaf.toList, number.repr.toList, ?_⟩
  simp only [String.toList_append, List.append_assoc]

theorem Reached.append {steps : List Step} {key : String} (reached : Reached steps key)
    (more : List Step) : Reached (steps ++ more) key := by
  induction reached with
  | root split clear =>
      rw [split, List.append_assoc]
      exact .root rfl clear
  | @hung before after parent label line _ split clear ih =>
      have longer : steps ++ more = before ++ .below parent label line :: (after ++ more) := by
        rw [split, List.append_assoc, List.cons_append]
      exact .hung ih longer clear

/-- Every group that is named is reached, and every entry stands below one that is. -/
structure AllReached (steps : List Step) : Prop where
  named : ∀ brief ∈ steps.filterMap Step.names?, Reached steps brief.key
  entries : ∀ parent label line, .entry parent label line ∈ steps → Reached steps parent

theorem AllReached.concat {steps : List Step} (all : AllReached steps) (step : Step)
    (named : ∀ brief, step.names? = some brief → Reached (steps ++ [step]) brief.key)
    (entry : ∀ parent label line, step = .entry parent label line →
      Reached (steps ++ [step]) parent) : AllReached (steps ++ [step]) where
  named := by
    intro brief member
    rw [List.filterMap_append, List.mem_append, List.mem_filterMap, List.mem_filterMap] at member
    rcases member with ⟨earlier, inside, names⟩ | ⟨last, inside, names⟩
    · exact (all.named brief (List.mem_filterMap.mpr ⟨earlier, inside, names⟩)).append [step]
    · rw [List.mem_singleton.mp inside] at names
      exact named brief names
  entries := by
    intro parent label line member
    rcases List.mem_append.mp member with front | back
    · exact (all.entries parent label line front).append [step]
    · exact entry parent label line (List.mem_singleton.mp back).symm

theorem AllReached.stepsBelow {steps : List Step} (all : AllReached steps) {parent : String}
    (reached : Reached steps parent) (line : Int) (labels : List String)
    (free : ∀ label ∈ labels, TagFree label) :
    AllReached (steps ++ stepsBelow line parent labels) := by
  fun_induction Outline.stepsBelow line parent labels generalizing steps with
  | case1 parent =>
      rw [List.append_nil]
      exact all
  | case2 parent label =>
      apply all.concat
      · intro brief names
        cases names
      · intro above leaf number same
        cases same
        exact reached.append _
  | case3 parent label next rest ih =>
      have hung : Reached (steps ++ [.below parent label line]) (containerKey parent label) :=
        .hung (reached.append _) rfl fun leaf number _ =>
          (free label List.mem_cons_self).leafKey_ne parent leaf number
      rw [List.append_cons]
      refine ih (all.concat _ ?_ ?_) hung fun one member => free one (List.mem_cons_of_mem _ member)
      · intro brief names
        cases names
        exact hung
      · intro above leaf number same
        cases same

theorem AllReached.stepsOf {steps : List Step} (all : AllReached steps) (separator : String)
    (pair : String × Int) (free : ∀ label ∈ Builder.segments separator pair.1, TagFree label) :
    AllReached (steps ++ stepsOf separator pair) := by
  rw [Outline.stepsOf]
  split
  · cases labels : Builder.segments separator pair.1 with
    | nil =>
        rw [pathSteps, List.append_nil]
        exact all
    | cons top rest =>
        have reached : Reached (steps ++ [.top top pair.2]) top := by
          by_cases known : ∃ brief ∈ steps.filterMap Step.names?, brief.key = top
          · obtain ⟨brief, member, rfl⟩ := known
            exact (all.named brief member).append _
          · exact .root rfl fun brief member same => known ⟨brief, member, same⟩
        rw [pathSteps, List.append_cons]
        refine (all.concat _ ?_ ?_).stepsBelow reached pair.2 rest ?_
        · intro brief names
          cases names
          exact reached
        · intro above leaf number same
          cases same
        · rw [labels] at free
          exact fun label member => free label (List.mem_cons_of_mem _ member)
  · apply all.concat
    · intro brief names
      cases names
    · intro above leaf number same
      cases same

theorem allReached_flatMap (separator : String) (pairs : List (String × Int))
    (free : ∀ pair ∈ pairs, ∀ label ∈ Builder.segments separator pair.1, TagFree label) :
    AllReached (pairs.flatMap (stepsOf separator)) := by
  induction pairs using List.reverseRecOn with
  | nil =>
      constructor
      · intro brief member
        cases member
      · intro parent label line member
        cases member
  | append_singleton pairs pair ih =>
      have before := ih fun other inside => free other (List.mem_append_left _ inside)
      have last := before.stepsOf separator pair (free pair (by simp))
      rw [List.flatMap_append, List.flatMap_singleton]
      exact last

theorem ofPairs_group_shown {separator : String} (pairs : List (String × Int))
    (nonempty : separator ≠ "")
    (part : Text.contains (keyJoiner ++ leafTag) separator = true) (key : String)
    (known : ((Plan.ofPairs separator pairs).group? key).isSome = true) :
    (Plan.ofPairs separator pairs).Shown (.group key) := by
  have all := allReached_flatMap separator pairs fun other _ label inside =>
    tagFree_of_mem_segments nonempty part inside
  rw [Plan.ofPairs, Plan.shown_group_iff]
  by_contra unreached
  have unnamed : (Plan.ofPairs separator pairs).group? key = none := by
    rw [Plan.ofPairs, Plan.group?_eq_none_iff]
    rintro brief named rfl
    exact unreached (all.named brief named)
  rw [unnamed] at known
  cases known

/-- Nothing is lost if the separator is a part of the tag in the keys of entries, as the standard
one is. -/
theorem visible_of_separator_part (separator : String) (pairs : List (String × Int))
    (nonempty : separator ≠ "")
    (part : Text.contains (keyJoiner ++ leafTag) separator = true)
    (ascending : Ascending pairs) :
    ∃ forest, buildForest (.token separator) pairs = .ok forest ∧
      ∀ pair ∈ pairs, Visible separator forest pair := by
  obtain ⟨builder, built, real⟩ := buildForest_eq_forest nonempty pairs
  refine ⟨builder.forest, built, fun pair member => ?_⟩
  rw [real.visible_iff nonempty ascending member, or_iff_not_imp_left, Bool.not_eq_false]
  intro cut
  have all := allReached_flatMap separator pairs fun other _ label inside =>
    tagFree_of_mem_segments nonempty part inside
  apply all.entries _ (entryLabel separator pair.1) pair.2
  exact List.mem_flatMap.mpr
    ⟨pair, member, (entry_mem_stepsOf_iff nonempty pair _ _ _).mpr ⟨cut, rfl, rfl, rfl⟩⟩

/-! ### The exact condition -/

/-- Whatever the separator, the outline of annotations on ascending lines shows exactly those that
are flat or whose group is reached. -/
theorem visible_iff_reached (separator : String) (pairs : List (String × Int))
    (nonempty : separator ≠ "")
    (ascending : Ascending pairs) :
    ∃ forest, buildForest (.token separator) pairs = .ok forest ∧
      ∀ pair ∈ pairs, Visible separator forest pair ↔
        Text.contains pair.1 separator = false ∨
          Reached (pairs.flatMap (stepsOf separator)) (entryGroup separator pair.1) := by
  obtain ⟨builder, built, real⟩ := buildForest_eq_forest nonempty pairs
  exact ⟨builder.forest, built, fun pair member => real.visible_iff nonempty ascending member⟩

theorem visible_iff_reached_slashes : ("/" : String) ≠ "" ∧
    Ascending [("P/x", 5), ("P/x :: line number 5/y", 6)] ∧
    ∃ forest, buildForest (.token "/") [("P/x", 5), ("P/x :: line number 5/y", 6)] = .ok forest ∧
      ∀ pair ∈ [("P/x", (5 : Int)), ("P/x :: line number 5/y", 6)], Visible "/" forest pair ↔
        Text.contains pair.1 "/" = false ∨
          Reached ([("P/x", (5 : Int)), ("P/x :: line number 5/y", 6)].flatMap (stepsOf "/"))
            (entryGroup "/" pair.1) :=
  ⟨by decide, by decide, visible_iff_reached "/" _ (by decide) (by decide)⟩

/-- A label on a path that reads like the key of an entry hides what is below it. -/
theorem not_visible_of_entry_key : ∃ forest,
    buildForest (.token "/") [("P/x", 5), ("P/x :: line number 5/y", 6)] = .ok forest ∧
      ¬ Visible "/" forest ("P/x :: line number 5/y", 6) := by
  refine ⟨[⟨"P", 5, "P", [⟨"x", 5, "P :: x :: line number 5", []⟩]⟩], by decide +kernel, ?_⟩
  intro given
  rcases given with ⟨node, visited, bare, sameLine, -⟩
  simp [visitsAll, visits] at visited
  rcases visited with rfl | rfl
  · cases bare
  · cases sameLine

end CommentOutline.Outline
