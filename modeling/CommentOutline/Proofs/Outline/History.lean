import Mathlib.Logic.Relation
import CommentOutline.Proofs.Outline.Realization

set_option autoImplicit false

/-! A builder at work. Whatever it is asked to add, its store changes in four ways only: a new cell,
a new group, a new root, a new child of a group. Each of them keeps a builder sound, and a sound
builder finds every group that it looks for. -/

namespace CommentOutline.Outline

open Relation (ReflTransGen)

inductive Operation where
  /-- Labels are cut at another separator from now on. -/
  | separate (separator : Separator)
  | reset
  | add (label : String) (line : Int)
  | addPath (segments : List String) (line : Int)
  | build (pairs : List (String × Int))
deriving Repr, DecidableEq

/-- A separator that labels can be cut at. -/
def Separator.Cuts : Separator → Prop
  | .token text => text ≠ ""
  | .notText _ => False

/-- What an operation may be given: a separator that cuts, a path with some label. -/
def Operation.Fits : Operation → Prop
  | .separate separator => separator.Cuts
  | .addPath segments _ => segments ≠ []
  | .reset | .add .. | .build _ => True

namespace Builder

/-- What is left after an attempt: the builder as it was, if there is an error. -/
def settle (builder : Builder) : Except BuildError Builder → Builder × Option BuildError
  | .ok next => (next, none)
  | .error error => (builder, some error)

def perform (builder : Builder) : Operation → Builder × Option BuildError
  | .separate separator => ({ builder with separator := separator }, none)
  | .reset => (builder.reset, none)
  | .add label line => builder.settle (builder.add label line)
  | .addPath segments line => builder.settle (builder.addPath segments line)
  | .build pairs => builder.build pairs

def after (builder : Builder) (operations : List Operation) : Builder :=
  operations.foldl (fun builder operation => (builder.perform operation).1) builder

theorem after_append (builder : Builder) (first second : List Operation) :
    builder.after (first ++ second) = (builder.after first).after second :=
  List.foldl_append

variable {builder next : Builder}

/-! ### Changes of the store -/

inductive Change (builder : Builder) : Builder → Prop
  | cell (brief : Brief) : Change builder (builder.newCell brief.label brief.line brief.key).2
  | group (brief : Brief) : builder.containers.lookup brief.key = none →
      Change builder (builder.makeGroup brief)
  | root {id : Nat} : id < builder.cells.length → Change builder (builder.addRoot id)
  | child {parent : String} {above child : Nat} {under : Cell} :
      builder.containers.lookup parent = some above → builder.cells[child]? = some under →
      parent.length < under.key.length → Change builder (builder.append above child)

abbrev Changes : Builder → Builder → Prop := ReflTransGen Change

theorem Change.separator_eq (change : Change builder next) :
    next.separator = builder.separator := by
  cases change <;> rfl

theorem Change.past_eq (change : Change builder next) : next.past = builder.past := by
  cases change <;> rfl

theorem Change.lookup (change : Change builder next) {key : String} {id : Nat}
    (found : builder.containers.lookup key = some id) :
    next.containers.lookup key = some id := by
  cases change with
  | group brief absent => rw [lookup_makeGroup, found, Option.some_or]
  | cell | root | child => exact found

theorem Changes.separator_eq (changes : Changes builder next) :
    next.separator = builder.separator := by
  induction changes with
  | refl => rfl
  | tail _ change ih => rw [change.separator_eq, ih]

theorem Changes.past_eq (changes : Changes builder next) : next.past = builder.past := by
  induction changes with
  | refl => rfl
  | tail _ change ih => rw [change.past_eq, ih]

theorem Changes.lookup (changes : Changes builder next) {key : String} {id : Nat}
    (found : builder.containers.lookup key = some id) :
    next.containers.lookup key = some id := by
  induction changes with
  | refl => exact found
  | tail _ change ih => exact change.lookup ih

/-! ### Sound builders -/

/-- Children have longer keys, a group is found under its own key, and the roots of this outline
and of all earlier ones are cells. -/
structure Sound (builder : Builder) : Prop where
  grows : Grows builder.cells
  index : ∀ key id, builder.containers.lookup key = some id →
    ∃ cell, builder.cells[id]? = some cell ∧ cell.key = key
  roots : ∀ ids ∈ builder.past ++ [builder.roots], ∀ id ∈ ids, id < builder.cells.length

theorem sound_start (separator : Separator) : (start separator).Sound where
  grows := Grows.nil
  index := by
    intro key id found
    cases found
  roots := by
    intro ids listed id inside
    rw [List.mem_singleton.mp listed] at inside
    cases inside

theorem Sound.newCell (sound : builder.Sound) (label : String) (line : Int) (key : String) :
    (builder.newCell label line key).2.Sound where
  grows := sound.grows.concat label line key
  index := by
    intro name id found
    obtain ⟨cell, present, sameKey⟩ := sound.index name id found
    exact ⟨cell, getElem?_concat_of_some present _, sameKey⟩
  roots := by
    intro ids listed id inside
    have bound := sound.roots ids listed id inside
    rw [Builder.newCell, List.length_append]
    exact Nat.lt_add_right _ bound

theorem Sound.makeGroup (sound : builder.Sound) (brief : Brief)
    (absent : builder.containers.lookup brief.key = none) : (builder.makeGroup brief).Sound where
  grows := (sound.newCell brief.label brief.line brief.key).grows
  roots := (sound.newCell brief.label brief.line brief.key).roots
  index := by
    intro key id found
    rw [lookup_makeGroup] at found
    by_cases same : key = brief.key
    · subst key
      rw [absent, Option.none_or, if_pos rfl] at found
      cases found
      exact ⟨_, List.getElem?_concat_length, rfl⟩
    · rw [if_neg same, Option.or_none] at found
      exact (sound.newCell brief.label brief.line brief.key).index key id found

theorem Sound.addRoot (sound : builder.Sound) {id : Nat} (bound : id < builder.cells.length) :
    (builder.addRoot id).Sound where
  grows := sound.grows
  index := sound.index
  roots := by
    intro ids listed
    rcases List.mem_append.mp listed with earlier | current
    · exact sound.roots ids (List.mem_append_left _ earlier)
    · rw [List.mem_singleton.mp current]
      intro root inside
      rcases List.mem_append.mp inside with old | new
      · exact sound.roots builder.roots List.mem_concat_self root old
      · rw [List.mem_singleton.mp new]
        exact bound

theorem Sound.append (sound : builder.Sound) {parent : String} {above child : Nat} {under : Cell}
    (found : builder.containers.lookup parent = some above)
    (present : builder.cells[child]? = some under) (longer : parent.length < under.key.length) :
    (builder.append above child).Sound where
  grows := by
    obtain ⟨top, there, sameKey⟩ := sound.index parent above found
    exact sound.grows.withChild there present (sameKey ▸ longer)
  index := by
    intro key id known
    obtain ⟨cell, there, sameKey⟩ := sound.index key id known
    obtain ⟨later, here, kept⟩ := exists_key_withChild there above child
    exact ⟨later, here, kept.trans sameKey⟩
  roots := by
    intro ids listed id inside
    have bound := sound.roots ids listed id inside
    rw [Builder.append, List.length_modify]
    exact bound

theorem Change.sound (change : Change builder next) (sound : builder.Sound) : next.Sound := by
  cases change with
  | cell brief => exact sound.newCell brief.label brief.line brief.key
  | group brief absent => exact sound.makeGroup brief absent
  | root bound => exact sound.addRoot bound
  | child found present longer => exact sound.append found present longer

theorem Changes.sound (changes : Changes builder next) (sound : builder.Sound) : next.Sound := by
  induction changes with
  | refl => exact sound
  | tail _ change ih => exact change.sound ih

theorem Sound.reset (sound : builder.Sound) : builder.reset.Sound where
  grows := sound.grows
  index := by
    intro key id found
    cases found
  roots := by
    intro ids listed
    rcases List.mem_append.mp listed with earlier | current
    · exact sound.roots ids earlier
    · rw [List.mem_singleton.mp current]
      intro id inside
      cases inside

theorem Sound.separate (sound : builder.Sound) (separator : Separator) :
    { builder with separator := separator : Builder }.Sound :=
  ⟨sound.grows, sound.index, sound.roots⟩

/-! ### What is added is changes -/

theorem changes_container (builder : Builder) (label : String) (line : Int) (key : String) :
    Changes builder (builder.container label line key).2 ∧
      (builder.container label line key).2.containers.lookup key =
        some (builder.container label line key).1 := by
  unfold Builder.container
  split
  · rename_i id known
    exact ⟨.refl, known⟩
  · rename_i absent
    have fresh := lookup_makeGroup builder ⟨label, line, key⟩ key
    rw [absent, Option.none_or, if_pos rfl] at fresh
    exact ⟨.single (.group ⟨label, line, key⟩ absent), fresh⟩

theorem Sound.changes_offer (sound : builder.Sound) {parent key : String} {above child : Nat}
    (found : builder.containers.lookup parent = some above)
    (known : builder.containers.lookup key = some child) (longer : parent.length < key.length) :
    Changes builder (builder.offer above child key) := by
  unfold Builder.offer
  split
  · exact .refl
  · obtain ⟨cell, present, sameKey⟩ := sound.index key child known
    exact .single (.child found present (sameKey ▸ longer))

theorem changes_topContainer (builder : Builder) (label : String) (line : Int) :
    Changes builder (builder.topContainer label line) ∧
      ((builder.topContainer label line).containers.lookup label).isSome = true := by
  unfold Builder.topContainer
  split
  · rename_i id known
    exact ⟨.refl, Option.isSome_iff_exists.mpr ⟨id, known⟩⟩
  · rename_i absent
    have fresh := lookup_makeGroup builder ⟨label, line, label⟩ label
    rw [absent, Option.none_or, if_pos rfl] at fresh
    have made : Change builder (builder.makeGroup ⟨label, line, label⟩) :=
      .group ⟨label, line, label⟩ absent
    have bound : builder.cells.length < (builder.makeGroup ⟨label, line, label⟩).cells.length := by
      rw [Builder.makeGroup, register, newCell, List.length_append]
      exact Nat.lt_succ_self _
    exact ⟨.tail (.single made) (.root bound), Option.isSome_iff_exists.mpr ⟨_, fresh⟩⟩

/-- A group below another one is made or found, and hung there. The parent is looked up by its key
again after that. -/
theorem Sound.changes_hang (sound : builder.Sound) {parent : String} {above : Nat}
    (found : builder.containers.lookup parent = some above) (label : String) (line : Int)
    {made : Nat × Builder}
    (isMade : builder.container label line (containerKey parent label) = made) :
    made.2.containers.lookup parent = some above ∧
      Changes builder (made.2.offer above made.1 (containerKey parent label)) ∧
      (made.2.offer above made.1 (containerKey parent label)).containers.lookup
        (containerKey parent label) = some made.1 := by
  obtain ⟨changes, indexed⟩ := changes_container builder label line (containerKey parent label)
  rw [isMade] at changes indexed
  have parentStays := changes.lookup found
  have hung := (changes.sound sound).changes_offer parentStays indexed
    (containerKey_length_lt parent label)
  exact ⟨parentStays, changes.trans hung, hung.lookup indexed⟩

theorem Sound.changes_addBelow (sound : builder.Sound) (line : Int) (parent : String)
    (labels : List String) (known : (builder.containers.lookup parent).isSome = true) :
    ∃ next, addBelow line parent labels builder = .ok next ∧ Changes builder next := by
  induction labels generalizing builder parent with
  | nil => exact ⟨builder, rfl, .refl⟩
  | cons label rest ih =>
      obtain ⟨above, found⟩ := Option.isSome_iff_exists.mp known
      cases rest with
      | nil =>
          have made : Change builder (builder.newCell label line (leafKey parent label line)).2 :=
            .cell ⟨label, line, leafKey parent label line⟩
          refine ⟨_, ?_, .tail (.single made)
            (.child found List.getElem?_concat_length (leafKey_length_lt parent label line))⟩
          simp only [Builder.addBelow, Builder.newCell, found]
      | cons next rest =>
          obtain ⟨parentStays, hung, indexed⟩ := sound.changes_hang found label line rfl
          obtain ⟨last, done, further⟩ :=
            ih (hung.sound sound) (containerKey parent label)
              (Option.isSome_iff_exists.mpr ⟨_, indexed⟩)
          refine ⟨last, ?_, hung.trans further⟩
          simp only [Builder.addBelow, parentStays]
          exact done

theorem Sound.changes_addPath (sound : builder.Sound) (segments : List String) (line : Int)
    (some_label : segments ≠ []) :
    ∃ next, builder.addPath segments line = .ok next ∧ Changes builder next := by
  cases segments with
  | nil => exact absurd rfl some_label
  | cons top rest =>
      obtain ⟨opened, known⟩ := changes_topContainer builder top line
      obtain ⟨next, done, further⟩ :=
        (opened.sound sound).changes_addBelow line top rest known
      exact ⟨next, done, opened.trans further⟩

theorem changes_addFlat (builder : Builder) (label : String) (line : Int) :
    Changes builder (builder.addFlat label line) := by
  have made : Change builder (builder.newCell label line label).2 := .cell ⟨label, line, label⟩
  have bound : builder.cells.length < (builder.newCell label line label).2.cells.length := by
    rw [newCell, List.length_append]
    exact Nat.lt_succ_self _
  exact .tail (.single made) (.root bound)

theorem Sound.changes_add (sound : builder.Sound) (label : String) (line : Int) :
    (∃ next, builder.add label line = .ok next ∧ Changes builder next) ∨
      ¬ builder.separator.Cuts ∧ ∃ error, builder.add label line = .error error := by
  unfold Builder.add
  split
  · rename_i value given
    exact Or.inr ⟨fun cuts => by rw [given] at cuts; exact cuts, _, rfl⟩
  · rename_i given
    exact Or.inr ⟨fun cuts => by rw [given] at cuts; exact cuts rfl, _, rfl⟩
  · rename_i separator _ _
    refine Or.inl ?_
    split
    · exact sound.changes_addPath _ line (segments_ne_nil separator label)
    · exact ⟨_, rfl, changes_addFlat builder label line⟩

theorem Sound.changes_addAll (sound : builder.Sound) (pairs : List (String × Int)) :
    Changes builder (builder.addAll pairs).1 ∧
      (builder.separator.Cuts → (builder.addAll pairs).2 = none) := by
  induction pairs generalizing builder with
  | nil => exact ⟨.refl, fun _ => rfl⟩
  | cons pair pairs ih =>
      rcases sound.changes_add pair.1 pair.2 with ⟨next, done, changes⟩ | ⟨blunt, error, failed⟩
      · obtain ⟨further, allDone⟩ := ih (changes.sound sound)
        rw [Builder.addAll, done]
        rw [changes.separator_eq] at allDone
        exact ⟨changes.trans further, allDone⟩
      · rw [Builder.addAll, failed]
        exact ⟨.refl, fun cuts => absurd cuts blunt⟩

/-! ### Operations -/

/-- What an operation does to a sound builder: it takes another separator, or it starts over or
not and makes some changes. -/
theorem Sound.perform_cases (sound : builder.Sound) (operation : Operation) :
    (∃ separator, operation = .separate separator ∧
        (builder.perform operation).1 = { builder with separator := separator }) ∨
      Changes builder (builder.perform operation).1 ∨
      Changes builder.reset (builder.perform operation).1 := by
  cases operation with
  | separate separator => exact Or.inl ⟨separator, rfl, rfl⟩
  | reset => exact Or.inr (Or.inr .refl)
  | build pairs => exact Or.inr (Or.inr (sound.reset.changes_addAll pairs).1)
  | add label line =>
      refine Or.inr (Or.inl ?_)
      rw [perform]
      rcases sound.changes_add label line with ⟨next, done, changes⟩ | ⟨-, error, failed⟩
      · rw [done]
        exact changes
      · rw [failed]
        exact .refl
  | addPath segments line =>
      refine Or.inr (Or.inl ?_)
      rw [perform]
      by_cases some_label : segments = []
      · rw [some_label]
        exact .refl
      · obtain ⟨next, done, changes⟩ := sound.changes_addPath segments line some_label
        rw [done]
        exact changes

theorem Sound.perform (sound : builder.Sound) (operation : Operation) :
    (builder.perform operation).1.Sound := by
  rcases sound.perform_cases operation with ⟨separator, -, same⟩ | changes | changes
  · rw [same]
    exact sound.separate separator
  · exact changes.sound sound
  · exact changes.sound sound.reset

theorem Sound.after (sound : builder.Sound) (operations : List Operation) :
    (builder.after operations).Sound := by
  induction operations generalizing builder with
  | nil => exact sound
  | cons operation operations ih => exact ih (sound.perform operation)

theorem Sound.perform_fits (sound : builder.Sound) (cuts : builder.separator.Cuts)
    {operation : Operation} (fits : operation.Fits) :
    (builder.perform operation).2 = none ∧ (builder.perform operation).1.separator.Cuts := by
  cases operation with
  | separate separator => exact ⟨rfl, fits⟩
  | reset => exact ⟨rfl, cuts⟩
  | build pairs =>
      obtain ⟨changes, done⟩ := sound.reset.changes_addAll pairs
      exact ⟨done cuts, changes.separator_eq ▸ cuts⟩
  | add label line =>
      rcases sound.changes_add label line with ⟨next, done, changes⟩ | ⟨blunt, -⟩
      · rw [Builder.perform, done]
        exact ⟨rfl, changes.separator_eq ▸ cuts⟩
      · exact absurd cuts blunt
  | addPath segments line =>
      obtain ⟨next, done, changes⟩ := sound.changes_addPath segments line fits
      rw [Builder.perform, done]
      exact ⟨rfl, changes.separator_eq ▸ cuts⟩

theorem Sound.cuts_after (sound : builder.Sound) (cuts : builder.separator.Cuts)
    {operations : List Operation} (fits : ∀ operation ∈ operations, operation.Fits) :
    (builder.after operations).separator.Cuts := by
  induction operations generalizing builder with
  | nil => exact cuts
  | cons operation operations ih =>
      have first := sound.perform_fits cuts (fits operation List.mem_cons_self)
      exact ih (sound.perform operation) first.2 fun later inside =>
        fits later (List.mem_cons_of_mem _ inside)

end Builder

end CommentOutline.Outline
