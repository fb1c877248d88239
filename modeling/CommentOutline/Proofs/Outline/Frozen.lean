import CommentOutline.Proofs.Outline.Unfolding

set_option autoImplicit false

/-! Outlines that were given up. Starting over empties the index of groups, so whatever is added
later goes below groups that are made later. The cells that are there stay as they are, and a root
list that was taken before shows for ever what it showed at that moment. -/

namespace CommentOutline.Outline

/-- Operations that give the outline up and start another one. -/
def Operation.StartsOver : Operation → Prop
  | .reset | .build _ => True
  | .separate _ | .add .. | .addPath .. => False

/-- The cells that stand somewhere below others, and these themselves. -/
inductive Under (cells : List Cell) (ids : List Nat) : Nat → Prop
  | top {id : Nat} : id ∈ ids → Under cells ids id
  | child {parent id : Nat} : Under cells ids parent → ChildOf cells id parent → Under cells ids id

theorem Under.bound {cells : List Cell} (grows : Grows cells) {ids : List Nat}
    (present : ∀ id ∈ ids, id < cells.length) {id : Nat} (under : Under cells ids id) :
    id < cells.length := by
  cases under with
  | top inside => exact present id inside
  | child _ isChild =>
      obtain ⟨cell, there, inside⟩ := isChild
      obtain ⟨below, found, -⟩ := grows _ cell there id inside
      exact (List.getElem?_eq_some_iff.mp found).1

theorem getElem?_of_front {cells later : List Cell} (kept : cells <+: later) {id : Nat}
    (bound : id < cells.length) : later[id]? = cells[id]? := by
  obtain ⟨rest, rfl⟩ := kept
  exact List.getElem?_append_left bound

theorem under_iff_of_front {cells later : List Cell} (grows : Grows cells) (kept : cells <+: later)
    {ids : List Nat} (present : ∀ id ∈ ids, id < cells.length) (id : Nat) :
    Under later ids id ↔ Under cells ids id := by
  constructor
  · intro under
    induction under with
    | top inside => exact .top inside
    | child _ isChild ih =>
        obtain ⟨cell, there, inside⟩ := isChild
        rw [getElem?_of_front kept (ih.bound grows present)] at there
        exact .child ih ⟨cell, there, inside⟩
  · intro under
    induction under with
    | top inside => exact .top inside
    | child above isChild ih =>
        obtain ⟨cell, there, inside⟩ := isChild
        rw [← getElem?_of_front kept (above.bound grows present)] at there
        exact .child ih ⟨cell, there, inside⟩

namespace Builder

variable {builder next : Builder} {cells : List Cell}

def rootsAt (builder : Builder) (mark : Nat) : List Nat :=
  (builder.past ++ [builder.roots]).getD mark []

theorem held_eq_view (builder : Builder) (mark : Nat) :
    builder.held mark = builder.view (builder.rootsAt mark) :=
  rfl

theorem Sound.rootsAt_lt (sound : builder.Sound) (mark : Nat) :
    ∀ id ∈ builder.rootsAt mark, id < builder.cells.length := by
  intro id inside
  rw [rootsAt, List.getD_eq_getElem?_getD] at inside
  cases listed : (builder.past ++ [builder.roots])[mark]? with
  | none =>
      rw [listed] at inside
      cases inside
  | some ids =>
      rw [listed] at inside
      exact sound.roots ids (List.mem_of_getElem? listed) id inside

theorem nodeAt?_of_front (grows : Grows builder.cells) (growsNext : Grows next.cells)
    (kept : builder.cells <+: next.cells) (id : Nat) :
    id < builder.cells.length → next.nodeAt? id = builder.nodeAt? id := by
  induction id using grows.induction with
  | step id below =>
      intro bound
      have present := List.getElem?_eq_getElem bound
      have children : next.view (builder.cells[id]).children =
          builder.view (builder.cells[id]).children := by
        rw [view_eq_filterMap next growsNext, view_eq_filterMap builder grows]
        apply List.filterMap_congr
        intro child inside
        obtain ⟨under, there, -⟩ := grows id _ present child inside
        exact below _ present child inside (List.getElem?_eq_some_iff.mp there).1
      rw [nodeAt?_of_cell builder present, nodeAt?_of_cell next
        ((getElem?_of_front kept bound).trans present), children]

theorem view_of_front (grows : Grows builder.cells) (growsNext : Grows next.cells)
    (kept : builder.cells <+: next.cells) {ids : List Nat}
    (present : ∀ id ∈ ids, id < builder.cells.length) : next.view ids = builder.view ids := by
  rw [view_eq_filterMap next growsNext, view_eq_filterMap builder grows]
  exact List.filterMap_congr fun id inside =>
    nodeAt?_of_front grows growsNext kept id (present id inside)

/-! ### Cells apart from the index -/

/-- The store begins with the given cells, and no group that can be found is one of them. -/
structure Sealed (cells : List Cell) (builder : Builder) : Prop where
  kept : cells <+: builder.cells
  apart : ∀ key id, builder.containers.lookup key = some id → cells.length ≤ id

theorem Sealed.reset (kept : cells <+: builder.cells) : Sealed cells builder.reset where
  kept := kept
  apart := by
    intro key id found
    cases found

/-- A child comes below a group that can be found, so none of the cells at the front changes. -/
theorem Sealed.append (shut : Sealed cells builder) {parent : String} {above : Nat}
    (found : builder.containers.lookup parent = some above) (child : Nat) :
    Sealed cells (builder.append above child) where
  apart := shut.apart
  kept := by
    rw [List.prefix_iff_getElem?]
    intro id bound
    -- groups that can be found lie behind the front, so the front keeps its child lists
    have other : above ≠ id :=
      Nat.ne_of_gt (Nat.lt_of_lt_of_le bound (shut.apart parent above found))
    rw [← List.prefix_iff_getElem?.mp shut.kept id bound]
    exact getElem?_withChild_other builder.cells other child

theorem Change.keepsSealed (change : Change builder next) (shut : Sealed cells builder) :
    Sealed cells next := by
  cases change with
  | cell brief => exact ⟨shut.kept.trans (List.prefix_append _ _), shut.apart⟩
  | group brief absent =>
      refine ⟨shut.kept.trans (List.prefix_append _ _), ?_⟩
      intro key id found
      rw [lookup_makeGroup] at found
      by_cases same : key = brief.key
      · subst key
        rw [absent, Option.none_or, if_pos rfl] at found
        cases found
        exact shut.kept.length_le
      · rw [if_neg same, Option.or_none] at found
        exact shut.apart key id found
  | root bound => exact ⟨shut.kept, shut.apart⟩
  | @child parent above child under found present longer => exact shut.append found child

theorem Changes.keepsSealed (changes : Changes builder next) (shut : Sealed cells builder) :
    Sealed cells next := by
  induction changes with
  | refl => exact shut
  | tail _ change ih => exact change.keepsSealed ih

theorem Sealed.perform (shut : Sealed cells builder) (sound : builder.Sound)
    (operation : Operation) : Sealed cells (builder.perform operation).1 := by
  rcases sound.perform_cases operation with ⟨separator, -, same⟩ | changes | changes
  · rw [same]
    exact ⟨shut.kept, shut.apart⟩
  · exact Changes.keepsSealed changes shut
  · exact Changes.keepsSealed changes (.reset shut.kept)

theorem Sealed.after (shut : Sealed cells builder) (sound : builder.Sound)
    (operations : List Operation) : Sealed cells (builder.after operations) := by
  induction operations generalizing builder with
  | nil => exact shut
  | cons operation operations ih => exact ih (shut.perform sound operation) (sound.perform operation)

/-! ### Outlines given up -/

theorem Sound.past_perform (sound : builder.Sound) (operation : Operation) :
    builder.past <+: (builder.perform operation).1.past := by
  rcases sound.perform_cases operation with ⟨separator, -, same⟩ | changes | changes
  · exact same ▸ List.prefix_rfl
  · exact (Changes.past_eq changes) ▸ List.prefix_rfl
  · rw [Changes.past_eq changes]
    exact List.prefix_append _ _

theorem Sound.past_after (sound : builder.Sound) (operations : List Operation) :
    builder.past <+: (builder.after operations).past := by
  induction operations generalizing builder with
  | nil => exact List.prefix_rfl
  | cons operation operations ih =>
      exact (sound.past_perform operation).trans (ih (sound.perform operation))

theorem Sound.startsOver (sound : builder.Sound) {operation : Operation}
    (startsOver : operation.StartsOver) :
    Changes builder.reset (builder.perform operation).1 := by
  cases operation with
  | reset => exact .refl
  | build pairs => exact (sound.reset.changes_addAll pairs).1
  | separate | add | addPath => exact startsOver.elim

theorem rootsAt_of_front (kept : builder.past ++ [builder.roots] <+: next.past) {mark : Nat}
    (bound : mark ≤ builder.past.length) : next.rootsAt mark = builder.rootsAt mark := by
  obtain ⟨rest, given⟩ := kept
  have inside : mark < (builder.past ++ [builder.roots]).length := by
    rw [List.length_append, List.length_singleton]
    omega
  rw [rootsAt, rootsAt, ← given, List.append_assoc, List.getD_eq_getElem?_getD,
    List.getD_eq_getElem?_getD, List.getElem?_append_left inside]

/-- A root list that is held when an outline is given up shows for ever what it showed then: the
store of that moment is the front of every later one, what is below the roots is the same cells, and
each of them has the label, the line, the key and the children that it had. -/
theorem held_frozen (separator : Separator) (before between afterwards : List Operation)
    (operation : Operation) (startsOver : operation.StartsOver) :
    let mark := ((start separator).after before).hold
    let given := (start separator).after (before ++ between)
    let last := (start separator).after (before ++ between ++ operation :: afterwards)
    given.cells <+: last.cells ∧
      last.held mark = given.held mark ∧
      last.rootsAt mark = given.rootsAt mark ∧
      ∀ id, (Under last.cells (last.rootsAt mark) id ↔ Under given.cells (given.rootsAt mark) id) ∧
        (Under given.cells (given.rootsAt mark) id →
          ∃ cell, given.cells[id]? = some cell ∧ last.cells[id]? = some cell) := by
  intro mark given last
  have soundBefore := (sound_start separator).after before
  have sound : given.Sound := (sound_start separator).after (before ++ between)
  have soundLast : last.Sound := (sound_start separator).after _
  have split : last = (given.perform operation).1.after afterwards := by
    exact after_append (start separator) (before ++ between) (operation :: afterwards)
  have changes := sound.startsOver startsOver
  have kept : given.cells <+: last.cells := by
    rw [split]
    exact ((Changes.keepsSealed changes (.reset List.prefix_rfl)).after
      (sound.perform operation) afterwards).kept
  have listed : given.past ++ [given.roots] <+: last.past := by
    rw [split]
    have later := (sound.perform operation).past_after afterwards
    rw [Changes.past_eq changes] at later
    exact later
  have bound : mark ≤ given.past.length := by
    have earlier := (soundBefore.past_after between).length_le
    rw [← after_append] at earlier
    exact earlier
  have same : last.rootsAt mark = given.rootsAt mark := rootsAt_of_front listed bound
  have present := sound.rootsAt_lt mark
  refine ⟨kept, ?_, same, fun id => ⟨?_, ?_⟩⟩
  · rw [held_eq_view, held_eq_view, same]
    exact view_of_front sound.grows soundLast.grows kept present
  · rw [same]
    exact under_iff_of_front sound.grows kept present id
  · intro under
    have inside := under.bound sound.grows present
    have there := List.getElem?_eq_getElem inside
    exact ⟨_, there, (getElem?_of_front kept inside).trans there⟩

/-- What was added between the hold and the build shows, what is built and added later does not. -/
theorem held_frozen_group : (Operation.build [("G::b", 3)]).StartsOver ∧
    ((start (.token "::")).after
        ([.add "G::a" 1] ++ [.add "G::x" 2] ++ [.build [("G::b", 3)], .add "G::c" 4])).held
      ((start (.token "::")).after [.add "G::a" 1]).hold =
        [⟨"G", 1, "G", [⟨"a", 1, "G :: a :: line number 1", []⟩,
          ⟨"x", 2, "G :: x :: line number 2", []⟩]⟩] := by
  have startsOver : (Operation.build [("G::b", 3)]).StartsOver := trivial
  obtain ⟨-, frozen, -⟩ := held_frozen (.token "::") [.add "G::a" 1] [.add "G::x" 2]
    [.add "G::c" 4] (.build [("G::b", 3)]) startsOver
  refine ⟨startsOver, frozen.trans ?_⟩
  decide +kernel

end Builder

end CommentOutline.Outline
