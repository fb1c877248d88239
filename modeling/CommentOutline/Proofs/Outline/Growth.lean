import CommentOutline.Proofs.Outline.Frozen

set_option autoImplicit false

/-! Adding one annotation. The groups on its path have ever longer keys, so they are different
cells, and each of them gets one child at most. Nothing that was there is lost or moved: an outline
only grows at the ends of its lists. -/

namespace CommentOutline.Outline

open List (Forall₂)

def Operation.AddsOne : Operation → Prop
  | .add .. | .addPath .. => True
  | .separate _ | .reset | .build _ => False

/-- The same cell at a later time: at most one more child, behind the others. -/
structure Cell.GrownTo (cell later : Cell) : Prop where
  label : later.label = cell.label
  line : later.line = cell.line
  key : later.key = cell.key
  front : cell.children <+: later.children
  oneMore : later.children.length ≤ cell.children.length + 1

theorem Cell.GrownTo.refl (cell : Cell) : cell.GrownTo cell :=
  ⟨rfl, rfl, rfl, List.prefix_rfl, Nat.le_succ _⟩

theorem Cell.grownTo_withChild (cell : Cell) (child : Nat) :
    cell.GrownTo (cell.withChild child) where
  label := rfl
  line := rfl
  key := rfl
  front := List.prefix_append _ _
  oneMore := by rw [Cell.withChild, List.length_append, List.length_singleton]

/-- The same cells at a later time, where only cells with certain keys have grown. -/
def GrownWhere (touched : String → Prop) (cells later : List Cell) : Prop :=
  ∀ (id : Nat) (cell : Cell), cells[id]? = some cell →
    ∃ grown, later[id]? = some grown ∧ cell.GrownTo grown ∧ (¬ touched cell.key → grown = cell)

namespace GrownWhere

variable {touched further : String → Prop} {cells between later : List Cell}

theorem refl (touched : String → Prop) (cells : List Cell) : GrownWhere touched cells cells :=
  fun _ cell present => ⟨cell, present, .refl cell, fun _ => rfl⟩

theorem of_front (kept : cells <+: between) (grown : GrownWhere touched between later) :
    GrownWhere touched cells later := by
  intro id cell present
  have there := getElem?_of_front kept (List.getElem?_eq_some_iff.mp present).1
  exact grown id cell (there.trans present)

theorem withChild {above : Nat} {top : Cell} (there : cells[above]? = some top) (child : Nat) :
    GrownWhere (fun key => key = top.key) cells
      (cells.modify above (Cell.withChild · child)) := by
  intro id cell present
  by_cases same : above = id
  · subst id
    have isTop : cell = top := Option.some.inj (present.symm.trans there)
    exact ⟨_, getElem?_withChild_self present child, cell.grownTo_withChild child,
      fun other => absurd (congrArg Cell.key isTop) other⟩
  · exact ⟨cell, (getElem?_withChild_other cells same child).trans present, .refl cell,
      fun _ => rfl⟩

theorem mono (grown : GrownWhere touched cells later) (more : ∀ key, touched key → further key) :
    GrownWhere further cells later := by
  intro id cell present
  obtain ⟨after, there, growth, kept⟩ := grown id cell present
  exact ⟨after, there, growth, fun untouched => kept fun touch => untouched (more _ touch)⟩

/-- Where different cells grow, one growth after the other is one growth. -/
theorem trans (first : GrownWhere touched cells between) (second : GrownWhere further between later)
    (apart : ∀ key, touched key → ¬ further key) :
    GrownWhere (fun key => touched key ∨ further key) cells later := by
  intro id cell present
  obtain ⟨middle, there, growth, kept⟩ := first id cell present
  obtain ⟨after, here, growthLater, keptLater⟩ := second id middle there
  by_cases touch : touched cell.key
  · have same := keptLater (growth.key ▸ apart cell.key touch)
    subst same
    exact ⟨after, here, growth, fun untouched => absurd (Or.inl touch) untouched⟩
  · have same := kept touch
    subst same
    exact ⟨after, here, growthLater, fun untouched => keptLater fun later =>
      untouched (Or.inr later)⟩

end GrownWhere

namespace Builder

variable {builder next : Builder}

/-! ### The way down a path -/

theorem container_front (builder : Builder) (label : String) (line : Int) (key : String) :
    (builder.container label line key).2.roots = builder.roots ∧
      builder.cells <+: (builder.container label line key).2.cells := by
  unfold Builder.container
  split
  · exact ⟨rfl, List.prefix_rfl⟩
  · exact ⟨rfl, List.prefix_append _ _⟩

theorem Sound.grownWhere_append (sound : builder.Sound) {parent : String} {above : Nat}
    (found : builder.containers.lookup parent = some above) (child : Nat) :
    GrownWhere (fun key => key = parent) builder.cells (builder.append above child).cells := by
  obtain ⟨top, there, sameKey⟩ := sound.index parent above found
  exact sameKey ▸ GrownWhere.withChild there child

theorem Sound.grownWhere_offer (sound : builder.Sound) {parent : String} {above : Nat}
    (found : builder.containers.lookup parent = some above) (child : Nat) (key : String) :
    (builder.offer above child key).roots = builder.roots ∧
      GrownWhere (fun key => key = parent) builder.cells (builder.offer above child key).cells := by
  unfold Builder.offer
  split
  · exact ⟨rfl, .refl _ _⟩
  · exact ⟨rfl, sound.grownWhere_append found child⟩

/-- On the way down from a group only cells grow whose keys are as long as that of the group. Every
further group has a longer key, so no cell grows twice. -/
theorem Sound.grownWhere_addBelow (sound : builder.Sound) (line : Int) (parent : String)
    (labels : List String) (known : (builder.containers.lookup parent).isSome = true)
    (done : addBelow line parent labels builder = .ok next) :
    next.roots = builder.roots ∧
      GrownWhere (fun key => parent.length ≤ key.length) builder.cells next.cells := by
  induction labels generalizing builder parent with
  | nil =>
      cases done
      exact ⟨rfl, .refl _ _⟩
  | cons label rest ih =>
      obtain ⟨above, found⟩ := Option.isSome_iff_exists.mp known
      cases rest with
      | nil =>
          have soundMade := sound.newCell label line (leafKey parent label line)
          have grown := soundMade.grownWhere_append found builder.cells.length
          simp only [Builder.addBelow, Builder.newCell, found] at done
          cases done
          refine ⟨rfl, .of_front (List.prefix_append _ _) (grown.mono ?_)⟩
          rintro key rfl
          exact Nat.le_refl _
      | cons following rest =>
          obtain ⟨parentStays, hung, indexed⟩ := sound.changes_hang found label line rfl
          obtain ⟨changes, -⟩ := changes_container builder label line (containerKey parent label)
          obtain ⟨rootsFound, kept⟩ :=
            container_front builder label line (containerKey parent label)
          obtain ⟨rootsHung, offered⟩ := (changes.sound sound).grownWhere_offer parentStays
            (builder.container label line (containerKey parent label)).1
            (containerKey parent label)
          simp only [Builder.addBelow, parentStays] at done
          obtain ⟨rootsLast, below⟩ := ih (hung.sound sound) (containerKey parent label)
            (Option.isSome_iff_exists.mpr ⟨_, indexed⟩) done
          have longer := containerKey_length_lt parent label
          have grown := offered.trans below (by
            rintro key rfl
            exact Nat.not_le_of_lt longer)
          refine ⟨rootsLast.trans (rootsHung.trans rootsFound), .of_front kept (grown.mono ?_)⟩
          rintro key (rfl | deeper)
          · exact Nat.le_refl _
          · exact Nat.le_trans (Nat.le_of_lt longer) deeper

/-! ### One annotation -/

/-- What one annotation may change in the store: every cell may grow once, and one root may come
behind the others. -/
structure GrownOnce (builder next : Builder) : Prop where
  cells : GrownWhere (fun _ => True) builder.cells next.cells
  roots : builder.roots <+: next.roots
  oneRoot : next.roots.length ≤ builder.roots.length + 1

theorem GrownOnce.refl (builder : Builder) : builder.GrownOnce builder :=
  ⟨.refl _ _, List.prefix_rfl, Nat.le_succ _⟩

theorem grownOnce_of_newRoot (kept : builder.cells <+: next.cells) {id : Nat}
    (added : next.roots = builder.roots ++ [id]) : builder.GrownOnce next where
  cells := .of_front kept (.refl _ _)
  roots := added ▸ List.prefix_append _ _
  oneRoot := by rw [added, List.length_append, List.length_singleton]

theorem topContainer_front (builder : Builder) (label : String) (line : Int) :
    builder.cells <+: (builder.topContainer label line).cells ∧
      builder.GrownOnce (builder.topContainer label line) := by
  unfold Builder.topContainer
  split
  · exact ⟨List.prefix_rfl, .refl _⟩
  · exact ⟨List.prefix_append _ _, grownOnce_of_newRoot (List.prefix_append _ _) rfl⟩

theorem Sound.grownOnce_addPath (sound : builder.Sound) (segments : List String) (line : Int)
    (done : builder.addPath segments line = .ok next) : builder.GrownOnce next := by
  cases segments with
  | nil => cases done
  | cons top rest =>
      obtain ⟨opened, known⟩ := changes_topContainer builder top line
      obtain ⟨kept, growth⟩ := topContainer_front builder top line
      obtain ⟨sameRoots, grown⟩ :=
        (opened.sound sound).grownWhere_addBelow line top rest known done
      refine ⟨.of_front kept (grown.mono fun _ _ => trivial), ?_, ?_⟩
      · exact sameRoots ▸ growth.roots
      · exact sameRoots ▸ growth.oneRoot

theorem Sound.grownOnce_add (sound : builder.Sound) (label : String) (line : Int)
    (done : builder.add label line = .ok next) : builder.GrownOnce next := by
  unfold Builder.add at done
  split at done
  · cases done
  · cases done
  · split at done
    · exact sound.grownOnce_addPath _ line done
    · cases done
      exact grownOnce_of_newRoot (List.prefix_append _ _) rfl

theorem Sound.exists_added (sound : builder.Sound) (cuts : builder.separator.Cuts)
    {addition : Operation} (isOne : addition.AddsOne) (fits : addition.Fits) :
    ∃ next, builder.perform addition = (next, none) ∧ Changes builder next ∧
      builder.GrownOnce next := by
  cases addition with
  | add label line =>
      rcases sound.changes_add label line with ⟨next, done, changes⟩ | ⟨blunt, -⟩
      · exact ⟨next, by rw [Builder.perform, done]; rfl, changes,
          sound.grownOnce_add label line done⟩
      · exact absurd cuts blunt
  | addPath segments line =>
      obtain ⟨next, done, changes⟩ := sound.changes_addPath segments line fits
      exact ⟨next, by rw [Builder.perform, done]; rfl, changes,
        sound.grownOnce_addPath segments line done⟩
  | separate | reset | build => exact isOne.elim

end Builder

/-! ### What is shown -/

/-- The same node at a later time: at most one more child, behind the others, and these may have
grown in their turn. -/
inductive Node.GrownTo : Node → Node → Prop
  | node {label : String} {line : Int} {key : String} {children front more : List Node} :
      Forall₂ Node.GrownTo children front → more.length ≤ 1 →
      Node.GrownTo ⟨label, line, key, children⟩ ⟨label, line, key, front ++ more⟩

def OutlineGrown (forest later : List Node) : Prop :=
  ∃ front more, later = front ++ more ∧ Forall₂ Node.GrownTo forest front ∧ more.length ≤ 1

namespace Builder

variable {builder next : Builder}

theorem forall₂_views (grows : Grows builder.cells) (growsNext : Grows next.cells)
    {relation : Node → Node → Prop} (ids : List Nat)
    (related : ∀ id ∈ ids, ∃ node later, builder.nodeAt? id = some node ∧
      next.nodeAt? id = some later ∧ relation node later) :
    Forall₂ relation (builder.view ids) (next.view ids) := by
  induction ids with
  | nil =>
      rw [view_eq_filterMap builder grows, view_eq_filterMap next growsNext]
      exact .nil
  | cons id ids ih =>
      obtain ⟨node, later, shown, shownLater, first⟩ := related id List.mem_cons_self
      rw [view_cons_of_nodeAt? grows shown, view_cons_of_nodeAt? growsNext shownLater]
      exact .cons first (ih fun other inside => related other (List.mem_cons_of_mem _ inside))

theorem exists_view_more (growsNext : Grows next.cells) {ids idsLater : List Nat}
    (front : ids <+: idsLater) (oneMore : idsLater.length ≤ ids.length + 1) :
    ∃ more, next.view idsLater = next.view ids ++ more ∧ more.length ≤ 1 := by
  obtain ⟨rest, rfl⟩ := front
  have short : rest.length ≤ 1 := by
    rw [List.length_append] at oneMore
    omega
  refine ⟨rest.filterMap next.nodeAt?, ?_, (List.length_filterMap_le _ _).trans short⟩
  rw [view_eq_filterMap next growsNext, view_eq_filterMap next growsNext, List.filterMap_append]

theorem GrownOnce.nodeAt? (growth : builder.GrownOnce next) (grows : Grows builder.cells)
    (growsNext : Grows next.cells) (id : Nat) :
    id < builder.cells.length → ∃ node later, builder.nodeAt? id = some node ∧
      next.nodeAt? id = some later ∧ node.GrownTo later := by
  induction id using grows.induction with
  | step id below =>
      intro bound
      have present := List.getElem?_eq_getElem bound
      obtain ⟨after, there, grown, -⟩ := growth.cells id _ present
      have children : Forall₂ Node.GrownTo (builder.view (builder.cells[id]).children)
          (next.view (builder.cells[id]).children) := by
        apply forall₂_views grows growsNext
        intro child inside
        obtain ⟨under, found, -⟩ := grows id _ present child inside
        exact below _ present child inside (List.getElem?_eq_some_iff.mp found).1
      obtain ⟨more, split, short⟩ := exists_view_more growsNext grown.front grown.oneMore
      refine ⟨_, _, nodeAt?_of_cell builder present, nodeAt?_of_cell next there, ?_⟩
      rw [grown.label, grown.line, grown.key, split]
      exact .node children short

/-- A builder once an annotation has been added. Roots stay in front of at most one new root, every
cell is the same but for at most one more child, and groups are still found where they were. So the
outline shows what it showed, and more only at the ends of its lists. -/
structure ExtendedTo (builder next : Builder) : Prop where
  roots : builder.roots <+: next.roots
  oneRoot : next.roots.length ≤ builder.roots.length + 1
  cells : ∀ (id : Nat) (cell : Cell), builder.cells[id]? = some cell →
    ∃ later, next.cells[id]? = some later ∧ cell.GrownTo later
  index : ∀ key id, builder.containers.lookup key = some id →
    next.containers.lookup key = some id
  forest : OutlineGrown builder.forest next.forest
  group : ∀ key node, builder.findContainer? key = some node →
    ∃ later, next.findContainer? key = some later ∧ node.GrownTo later

theorem GrownOnce.extendedTo (growth : builder.GrownOnce next) (changes : Changes builder next)
    (sound : builder.Sound) : builder.ExtendedTo next where
  roots := growth.roots
  oneRoot := growth.oneRoot
  cells := by
    intro id cell present
    obtain ⟨later, there, grown, -⟩ := growth.cells id cell present
    exact ⟨later, there, grown⟩
  index := fun key id found => changes.lookup found
  forest := by
    have growsNext := (changes.sound sound).grows
    obtain ⟨more, split, short⟩ := exists_view_more growsNext growth.roots growth.oneRoot
    refine ⟨next.view builder.roots, more, split, ?_, short⟩
    apply forall₂_views sound.grows growsNext
    intro id inside
    exact growth.nodeAt? sound.grows growsNext id
      (sound.roots _ List.mem_concat_self id inside)
  group := by
    have growsNext := (changes.sound sound).grows
    intro key node found
    obtain ⟨id, known, shown⟩ := (findContainer?_eq_some_iff builder sound.grows key node).mp found
    obtain ⟨cell, present, -⟩ := sound.index key id known
    obtain ⟨same, later, shownHere, shownLater, grown⟩ := growth.nodeAt? sound.grows growsNext id
      (List.getElem?_eq_some_iff.mp present).1
    have isNode : node = same := Option.some.inj (shown.symm.trans shownHere)
    exact ⟨later, (findContainer?_eq_some_iff next growsNext key later).mpr
      ⟨id, changes.lookup known, shownLater⟩, isNode ▸ grown⟩

/-- Whatever a builder has been asked before and however keys meet, an annotation that fits is
added, and adding it only extends the outline. -/
theorem perform_extendedTo (separator : Separator) (before : List Operation) (addition : Operation)
    (isOne : addition.AddsOne) (fits : addition.Fits)
    (cuts : ((start separator).after before).separator.Cuts) :
    (((start separator).after before).perform addition).2 = none ∧
      ((start separator).after before).ExtendedTo
        (((start separator).after before).perform addition).1 := by
  have sound := (sound_start separator).after before
  obtain ⟨next, done, changes, growth⟩ := sound.exists_added cuts isOne fits
  rw [done]
  exact ⟨rfl, growth.extendedTo changes sound⟩

/-- The path goes to a group that stands at the top already, since the keys meet, and every group
on it gets a child. -/
theorem perform_extendedTo_shared :
    (Operation.add "A/A/B/x" 3).AddsOne ∧ (Operation.add "A/A/B/x" 3).Fits ∧
    ((start (.token "/")).after [.addPath ["A :: A"] 1, .add "A/x" 2]).separator.Cuts ∧
    (((start (.token "/")).after [.addPath ["A :: A"] 1, .add "A/x" 2]).perform
      (.add "A/A/B/x" 3)).2 = none ∧
    ((start (.token "/")).after [.addPath ["A :: A"] 1, .add "A/x" 2]).ExtendedTo
      (((start (.token "/")).after [.addPath ["A :: A"] 1, .add "A/x" 2]).perform
        (.add "A/A/B/x" 3)).1 := by
  have isOne : (Operation.add "A/A/B/x" 3).AddsOne := trivial
  have fits : (Operation.add "A/A/B/x" 3).Fits := trivial
  have cuts : ((start (.token "/")).after [.addPath ["A :: A"] 1, .add "A/x" 2]).separator.Cuts :=
    (show ("/" : String) ≠ "" by decide)
  exact ⟨isOne, fits, cuts, perform_extendedTo _ _ _ isOne fits cuts⟩

end Builder

end CommentOutline.Outline
