import CommentOutline.Proofs.Comment.Scanning
import CommentOutline.Proofs.Outline.Entries
import CommentOutline.Proofs.Outline.OnePlace
import CommentOutline.Proofs.Outline.Unfolding

set_option autoImplicit false

/-! The index of groups against the outline. After any resets and annotations under labels without
the standard separator, a key is found exactly if groups alone lead from the roots to one position
with this key, and what is found is the group there. -/

namespace CommentOutline.Outline

open List (Forall₂)

theorem Plan.Orderly.place_unique {plan : Plan} (orderly : plan.Orderly) {path : List String}
    (plain : PlainPath path) {key : String} {place other : Nat}
    (here : (plan.slotsAt path)[place]? = some (.group key))
    (there : (plan.slotsAt path)[other]? = some (.group key)) : place = other :=
  place_unique_of_apart (orderly.single path plain) here there

theorem getElem?_of_forall₂ {α β : Type} {relation : α → β → Prop} {as : List α} {bs : List β}
    (related : Forall₂ relation as bs) {place : Nat} {a : α} (here : as[place]? = some a) :
    ∃ b, bs[place]? = some b ∧ relation a b := by
  obtain ⟨bound, rfl⟩ := List.getElem?_eq_some_iff.mp here
  have boundRight : place < bs.length := related.length_eq ▸ bound
  exact ⟨bs[place], List.getElem?_eq_getElem boundRight, related.get bound boundRight⟩

theorem Node.descend?_concat (node : Node) (path : List Int) (position : Int) :
    node.descend? (path ++ [position]) =
      (node.descend? path).bind fun last => itemAt? last.children position := by
  induction path generalizing node with
  | nil =>
      rw [List.nil_append, Node.descend?, Node.descend?, Option.bind_some]
      cases itemAt? node.children position <;> rfl
  | cons first path ih =>
      rw [List.cons_append, Node.descend?, Node.descend?, Option.bind_assoc]
      congr 1
      funext child
      exact ih child

theorem descend?_concat (forest : List Node) {path : List Int} (begun : path ≠ [])
    (position : Int) :
    descend? forest (path ++ [position]) =
      (descend? forest path).bind fun last => itemAt? last.children position := by
  obtain ⟨first, rest, rfl⟩ := List.exists_cons_of_ne_nil begun
  rw [List.cons_append, descend?, descend?, Option.bind_assoc]
  congr 1
  funext child
  exact child.descend?_concat rest position

namespace Builder

/-- The places, one below the other from the roots on, lead to a cell. The labels on the way are the
path, and none of the cells on the way, the last one included, is left out. -/
inductive Stands (builder : Builder) (leftOut : List Nat) : List Nat → List String → Nat → Prop
  | root {place id : Nat} {cell : Cell} :
      builder.roots[place]? = some id → builder.cells[id]? = some cell → id ∉ leftOut →
      Stands builder leftOut [place] [cell.label] id
  | inside {places : List Nat} {path : List String} {above place id : Nat} {parent cell : Cell} :
      Stands builder leftOut places path above → builder.cells[above]? = some parent →
      parent.children[place]? = some id → builder.cells[id]? = some cell → id ∉ leftOut →
      Stands builder leftOut (places ++ [place]) (path ++ [cell.label]) id

theorem Stands.mono {builder : Builder} {leftOut fewer places : List Nat} {path : List String}
    {id : Nat} (stands : builder.Stands leftOut places path id)
    (less : ∀ id ∉ leftOut, id ∉ fewer) : builder.Stands fewer places path id := by
  induction stands with
  | root here present free => exact .root here present (less _ free)
  | inside _ presentAbove here present free ih =>
      exact .inside ih presentAbove here present (less _ free)

/-- A builder that knows its entries and realizes a plan in which each group has one place. -/
structure Kept (builder : Builder) (entries : List Nat) (briefs : List Brief) (plan : Plan) :
    Prop where
  booked : builder.Booked entries briefs
  real : builder.Realizes plan
  orderly : plan.Orderly

variable {builder : Builder} {entries : List Nat} {briefs : List Brief} {plan : Plan}

theorem realizes_start (separator : Separator) : (start separator).Realizes .empty where
  grows := Grows.nil
  group := fun _ _ found => nomatch found
  missing := fun _ _ => ⟨rfl, rfl⟩
  roots := .nil

theorem Kept.perform (kept : builder.Kept entries briefs plan)
    (token : builder.separator = .token "::") {operation : Operation} (plain : operation.Plain) :
    ∃ next, (builder.perform operation).1.Kept
        (entries ++ ((builder.perform operation).1.lastCell? operation.added?).toList)
        (briefs ++ operation.added?.toList) next ∧
      (builder.perform operation).1.separator = .token "::" := by
  have booked := kept.booked.perform token plain
  cases operation with
  | separate separator => exact absurd plain id
  | build pairs => exact absurd plain id
  | reset =>
      exact ⟨_, ⟨booked, realizes_reset builder kept.real.grows, Plan.orderly_empty⟩, token⟩
  | addPath labels line =>
      obtain ⟨next, done, real, same⟩ := kept.real.addPath labels line plain.1
      rw [Builder.perform, done] at booked ⊢
      exact ⟨_, ⟨booked, real, kept.orderly.pathSteps line plain.2⟩, same.trans token⟩
  | add label line =>
      obtain ⟨next, done, real, same⟩ := kept.real.add token (by decide) (label, line)
      rw [Builder.perform, done] at booked ⊢
      exact ⟨_, ⟨booked, real, kept.orderly.stepsOf (label, line)⟩, same.trans token⟩

theorem Kept.after (kept : builder.Kept entries briefs plan)
    (token : builder.separator = .token "::") (operations : List Operation)
    (plain : ∀ operation ∈ operations, operation.Plain) :
    ∃ next, (builder.after operations).Kept (entries ++ builder.entriesAfter operations)
      (briefs ++ operations.filterMap Operation.added?) next := by
  induction operations generalizing builder entries briefs plan with
  | nil =>
      rw [entriesAfter, List.filterMap_nil, List.append_nil, List.append_nil]
      exact ⟨plan, kept⟩
  | cons operation operations ih =>
      obtain ⟨next, keptNext, tokenNext⟩ := kept.perform token (plain operation List.mem_cons_self)
      obtain ⟨last, keptLast⟩ := ih keptNext tokenNext fun later inside =>
        plain later (List.mem_cons_of_mem _ inside)
      have listed : (operation :: operations).filterMap Operation.added? =
          operation.added?.toList ++ operations.filterMap Operation.added? := by
        rw [List.filterMap_cons]
        cases operation.added? <;> rfl
      rw [List.append_assoc, List.append_assoc, ← listed] at keptLast
      exact ⟨last, keptLast⟩

/-! ### Positions of groups -/

theorem Realizes.children_hold (real : builder.Realizes plan) {path : List String}
    (begun : path ≠ []) {above : Nat} {parent : Cell}
    (found : builder.containers.lookup (pathKey path) = some above)
    (present : builder.cells[above]? = some parent) :
    Forall₂ builder.Holds parent.children (plan.slotsAt path) := by
  obtain ⟨cell, there, carries⟩ := real.group _ above found
  cases there.symm.trans present
  rw [plan.slotsAt_eq_below begun]
  exact carries.children

theorem Kept.group_at (kept : builder.Kept entries briefs plan) {path : List String}
    (plain : PlainPath path) {ids : List Nat} (holds : Forall₂ builder.Holds ids (plan.slotsAt path))
    {place id : Nat} {cell : Cell} (here : ids[place]? = some id)
    (known : builder.Known entries id) (noEntry : id ∉ entries)
    (present : builder.cells[id]? = some cell) :
    PlainPath (path ++ [cell.label]) ∧
      builder.containers.lookup (pathKey (path ++ [cell.label])) = some id ∧
      (plan.slotsAt path)[place]? = some (.group (pathKey (path ++ [cell.label]))) := by
  obtain ⟨key, found⟩ := known.resolve_left noEntry
  obtain ⟨slot, stands, held⟩ := getElem?_of_forall₂ holds here
  cases slot with
  | entry brief => exact absurd found (held.2 key)
  | group named =>
      obtain ⟨cell', there, carries⟩ := kept.real.group named id held
      cases there.symm.trans present
      obtain ⟨label, plainLabel, sameKey, -⟩ :=
        kept.orderly.fitting path named plain (List.mem_of_getElem? stands)
      obtain ⟨path', plain', sameKey', -, -⟩ := kept.orderly.placed named _ carries.named
      obtain ⟨rfl, rfl⟩ :=
        pathKey_concat_injective (plain.concat plainLabel) plain' (sameKey.symm.trans sameKey')
      subst sameKey
      exact ⟨plain', held, stands⟩

theorem Stands.found (kept : builder.Kept entries briefs plan) {places : List Nat}
    {path : List String} {id : Nat} (stands : builder.Stands entries places path id) :
    PlainPath path ∧ path ≠ [] ∧ builder.containers.lookup (pathKey path) = some id := by
  induction stands with
  | root here present noEntry =>
      obtain ⟨plain, found, -⟩ := kept.group_at plainPath_nil kept.real.roots here
        (kept.booked.roots _ (List.mem_of_getElem? here)) noEntry present
      exact ⟨plain, List.cons_ne_nil _ _, found⟩
  | inside _ presentAbove here present noEntry ih =>
      obtain ⟨plainAbove, begun, foundAbove⟩ := ih
      obtain ⟨plain, found, -⟩ := kept.group_at plainAbove
        (kept.real.children_hold begun foundAbove presentAbove) here
        (kept.booked.children _ _ _ foundAbove presentAbove _ (List.mem_of_getElem? here)) noEntry
        present
      exact ⟨plain, by simp, found⟩

theorem Stands.places_eq (kept : builder.Kept entries briefs plan) {places : List Nat}
    {path : List String} {id : Nat} (stands : builder.Stands entries places path id) :
    ∀ places' path' id', builder.Stands entries places' path' id' → path' = path →
      places' = places := by
  induction stands with
  | @root place id cell here present noEntry =>
      intro places' path' id' other same
      cases other with
      | @root place' _ cell' here' present' noEntry' =>
          obtain ⟨-, -, slot⟩ := kept.group_at plainPath_nil kept.real.roots here
            (kept.booked.roots _ (List.mem_of_getElem? here)) noEntry present
          obtain ⟨-, -, slot'⟩ := kept.group_at plainPath_nil kept.real.roots here'
            (kept.booked.roots _ (List.mem_of_getElem? here')) noEntry' present'
          rw [(List.cons.inj same).1] at slot'
          rw [kept.orderly.place_unique plainPath_nil slot slot']
      | inside above' =>
          obtain ⟨-, begun, -⟩ := above'.found kept
          exact absurd (List.append_inj' (same.trans (List.nil_append _).symm) rfl).1 begun
  | @inside places path above place id parent cell standsAbove presentAbove here present noEntry ih =>
      intro places' path' id' other same
      obtain ⟨plainAbove, begun, foundAbove⟩ := standsAbove.found kept
      cases other with
      | root => exact absurd (List.append_inj' ((List.nil_append _).trans same) rfl).1.symm begun
      | @inside places' path' above' place' _ parent' cell' standsAbove' presentAbove' here' present'
          noEntry' =>
          -- the parents are one group, since they have one path
          obtain ⟨rfl, sameLabel⟩ := List.append_inj' same rfl
          obtain ⟨-, -, foundAbove'⟩ := standsAbove'.found kept
          cases foundAbove.symm.trans foundAbove'
          cases presentAbove.symm.trans presentAbove'
          have holds := kept.real.children_hold begun foundAbove presentAbove
          have known : ∀ child ∈ parent.children, builder.Known entries child :=
            kept.booked.children _ _ _ foundAbove presentAbove
          obtain ⟨-, -, slot⟩ := kept.group_at plainAbove holds here
            (known _ (List.mem_of_getElem? here)) noEntry present
          obtain ⟨-, -, slot'⟩ := kept.group_at plainAbove holds here'
            (known _ (List.mem_of_getElem? here')) noEntry' present'
          rw [(List.cons.inj sameLabel).1] at slot'
          rw [ih _ _ _ standsAbove' rfl, kept.orderly.place_unique plainAbove slot slot']

theorem Kept.exists_stands (kept : builder.Kept entries briefs plan) (path : List String) :
    ∀ id, PlainPath path → path ≠ [] → builder.containers.lookup (pathKey path) = some id →
      ∃ places, builder.Stands entries places path id := by
  induction path using List.reverseRecOn with
  | nil => exact fun _ _ begun => absurd rfl begun
  | append_singleton front label ih =>
      intro id plain _ found
      obtain ⟨cell, present, carries⟩ := kept.real.group _ id found
      obtain ⟨path', plain', same, stands, parentNamed⟩ :=
        kept.orderly.placed _ _ carries.named
      obtain ⟨rfl, sameLabel⟩ := pathKey_concat_injective plain plain' same
      have isLabel : label = cell.label := sameLabel
      have noEntry : id ∉ entries := fun member => kept.booked.not_indexed member _ found
      -- wherever the group of this key stands in the plan, the cell that is found stands
      have position : ∀ ids : List Nat, Forall₂ builder.Holds ids (plan.slotsAt front) →
          ∃ place : Nat, ids[place]? = some id := by
        intro ids holds
        obtain ⟨other, inside, held⟩ := exists_left holds stands
        cases found.symm.trans held
        exact List.getElem?_of_mem inside
      by_cases begun : front = []
      · subst begun
        obtain ⟨place, here⟩ := position _ kept.real.roots
        rw [isLabel]
        exact ⟨_, .root here present noEntry⟩
      · have plainFront : PlainPath front := fun one member =>
          plain one (List.mem_append_left _ member)
        have named := parentNamed begun
        rw [kept.real.isSome_group?] at named
        obtain ⟨above, foundAbove⟩ := Option.isSome_iff_exists.mp named
        obtain ⟨places, standsAbove⟩ := ih above plain.front begun foundAbove
        obtain ⟨parent, presentAbove, -⟩ := kept.real.group _ above foundAbove
        obtain ⟨place, here⟩ :=
          position _ (kept.real.children_hold begun foundAbove presentAbove)
        rw [isLabel]
        exact ⟨_, .inside standsAbove presentAbove here present noEntry⟩

/-- Nothing stands below an entry, so the way to whatever is no entry leads through groups. -/
theorem Stands.through_groups (kept : builder.Kept entries briefs plan) {places : List Nat}
    {path : List String} {id : Nat} (stands : builder.Stands [] places path id)
    (noEntry : id ∉ entries) : builder.Stands entries places path id := by
  induction stands with
  | root here present _ => exact .root here present noEntry
  | @inside places path above place id parent cell _ presentAbove here present _ ih =>
      refine .inside (ih fun member => ?_) presentAbove here present noEntry
      obtain ⟨brief, -, holds⟩ := exists_right kept.booked.entry member
      cases holds.1.symm.trans presentAbove
      cases here

/-! ### Positions in the forest -/

theorem getElem?_view (grows : Grows builder.cells) {ids : List Nat}
    (bound : ∀ id ∈ ids, id < builder.cells.length) {place id : Nat}
    (here : ids[place]? = some id) : (builder.view ids)[place]? = builder.nodeAt? id := by
  have shown : Forall₂ (fun id node => builder.nodeAt? id = some node) ids (builder.view ids) := by
    apply forall₂_view grows
    intro other inside
    obtain ⟨node, there, -⟩ := exists_unfolds grows other (bound other inside)
    exact ⟨node, there, there⟩
  obtain ⟨node, there, same⟩ := getElem?_of_forall₂ shown here
  rw [there, same]

theorem Stands.descend?_eq (sound : builder.Sound) {leftOut places : List Nat}
    {path : List String} {id : Nat} (stands : builder.Stands leftOut places path id) :
    descend? builder.forest (places.map Int.ofNat) = builder.nodeAt? id := by
  induction stands with
  | @root place id cell here _ _ =>
      have atRoot := getElem?_view sound.grows (sound.roots _ List.mem_concat_self) here
      rw [← atRoot, List.map_singleton, descend?, Int.ofNat_eq_natCast, itemAt?_natCast, forest]
      cases (builder.view builder.roots)[place]? <;> rfl
  | @inside places path above place id parent cell standsAbove presentAbove here _ _ ih =>
      have begun : places.map Int.ofNat ≠ [] := by
        cases standsAbove <;> simp
      have bound : ∀ child ∈ parent.children, child < builder.cells.length := by
        intro child isChild
        obtain ⟨below, there, -⟩ := sound.grows above parent presentAbove child isChild
        exact (List.getElem?_eq_some_iff.mp there).1
      rw [List.map_append, List.map_singleton, descend?_concat _ begun, ih,
        nodeAt?_of_cell builder presentAbove, Option.bind_some, Int.ofNat_eq_natCast,
        itemAt?_natCast]
      exact getElem?_view sound.grows bound here

/-! ### Agreement -/

/-- Groups alone lead to one position with a key, and there is a cell. -/
structure OnlyAt (builder : Builder) (entries : List Nat) (key : String) (places : List Nat)
    (id : Nat) : Prop where
  stands : ∃ path, builder.Stands entries places path id ∧ pathKey path = key
  only : ∀ places' path' id', builder.Stands entries places' path' id' → pathKey path' = key →
    places' = places ∧ id' = id

/-- The index and the outline tell the same. The listed cells are those of the entries, and whatever
else stands in the outline is a group of the index. -/
structure Agrees (builder : Builder) (entries : List Nat) (briefs : List Brief) : Prop where
  found : ∀ key id, builder.containers.lookup key = some id ↔
    ∃ places, builder.OnlyAt entries key places id
  shown : ∀ key node, builder.findContainer? key = some node ↔
    ∃ places id, builder.OnlyAt entries key places id ∧
      descend? builder.forest (places.map Int.ofNat) = some node
  once : ∀ key id, builder.containers.lookup key = some id →
    ∃ places, (∃ path, builder.Stands [] places path id) ∧
      ∀ places' path', builder.Stands [] places' path' id → places' = places
  covered : ∀ places path id, builder.Stands [] places path id →
    id ∈ entries ∨ ∃ key, builder.containers.lookup key = some id
  entry : Forall₂ (fun id (brief : Brief) =>
    builder.cells[id]? = some ⟨brief.label, brief.line, brief.key, []⟩ ∧
      ∀ key, builder.containers.lookup key ≠ some id) entries briefs
  single : ∀ path places id places' id', builder.Stands entries places path id →
    builder.Stands entries places' path id' → places' = places ∧ id' = id

theorem Kept.found_iff (kept : builder.Kept entries briefs plan) (key : String) (id : Nat) :
    builder.containers.lookup key = some id ↔ ∃ places, builder.OnlyAt entries key places id := by
  constructor
  · intro found
    obtain ⟨cell, -, carries⟩ := kept.real.group key id found
    obtain ⟨front, plain, rfl, -, -⟩ := kept.orderly.placed key _ carries.named
    obtain ⟨places, stands⟩ := kept.exists_stands _ id plain (by simp) found
    refine ⟨places, ⟨_, stands, rfl⟩, ?_⟩
    intro places' path' id' other same
    obtain ⟨plain', begun', found'⟩ := other.found kept
    have samePath := pathKey_injective plain' plain begun' (by simp) same
    rw [same, found] at found'
    exact ⟨stands.places_eq kept _ _ _ other samePath, (Option.some.inj found').symm⟩
  · intro given
    obtain ⟨places, ⟨path, stands, rfl⟩, -⟩ := given
    exact (stands.found kept).2.2

theorem Kept.agrees (kept : builder.Kept entries briefs plan) (sound : builder.Sound) :
    builder.Agrees entries briefs where
  found := kept.found_iff
  shown := by
    intro key node
    rw [builder.findContainer?_eq_some_iff sound.grows]
    constructor
    · intro given
      obtain ⟨id, found, here⟩ := given
      obtain ⟨places, only⟩ := (kept.found_iff key id).mp found
      obtain ⟨path, stands, -⟩ := only.stands
      exact ⟨places, id, only, (stands.descend?_eq sound).trans here⟩
    · intro given
      obtain ⟨places, id, only, here⟩ := given
      obtain ⟨path, stands, -⟩ := only.stands
      exact ⟨id, (kept.found_iff key id).mpr ⟨places, only⟩,
        (stands.descend?_eq sound).symm.trans here⟩
  once := by
    intro key id found
    have noEntry : id ∉ entries := fun member => kept.booked.not_indexed member key found
    obtain ⟨places, only⟩ := (kept.found_iff key id).mp found
    obtain ⟨path, stands, -⟩ := only.stands
    refine ⟨places, ⟨path, stands.mono fun _ _ => List.not_mem_nil⟩, ?_⟩
    intro places' path' other
    have grouped := other.through_groups kept noEntry
    refine (only.only places' path' id grouped ?_).1
    exact kept.real.index_injective (grouped.found kept).2.2 found
  covered := by
    intro places path id stands
    rw [or_iff_not_imp_left]
    intro noEntry
    exact ⟨_, ((stands.through_groups kept noEntry).found kept).2.2⟩
  entry := kept.booked.entry
  single := by
    intro path places id places' id' stands other
    have found := (stands.found kept).2.2
    rw [(other.found kept).2.2] at found
    exact ⟨stands.places_eq kept _ _ _ other rfl, Option.some.inj found⟩

/-- Whatever is reset and added at the standard separator, what is found by a key is the group at
the only position that groups lead to with the labels of this key. No entry is found, every group
that is found stands at one place, and no two groups have one path. -/
theorem index_agrees_after (operations : List Operation)
    (plain : ∀ operation ∈ operations, operation.Plain) :
    ((start (.token "::")).after operations).Agrees
      ((start (.token "::")).entriesAfter operations) (operations.filterMap Operation.added?) := by
  have fresh : (start (.token "::")).Kept [] [] .empty :=
    ⟨booked_start _, realizes_start _, Plan.orderly_empty⟩
  obtain ⟨plan, kept⟩ := fresh.after rfl operations plain
  exact kept.agrees ((sound_start _).after operations)

/-- A flat entry with the key of a group, a path of one label, and a group that is offered to its
parent again, all after a reset. -/
theorem index_agrees_after_reset :
    (∀ operation ∈ [.add "A::x" 0, .reset, .add "A" 1, .add "A::B::x" 2, .addPath ["A"] 3,
      .addPath ["A", "B", "x"] 4], Operation.Plain operation) ∧
    ((start (.token "::")).after [.add "A::x" 0, .reset, .add "A" 1, .add "A::B::x" 2,
      .addPath ["A"] 3, .addPath ["A", "B", "x"] 4]).Agrees [1, 2, 5, 6]
        [⟨"x", 0, "A :: x :: line number 0"⟩, ⟨"A", 1, "A"⟩,
          ⟨"x", 2, "A :: B :: x :: line number 2"⟩, ⟨"x", 4, "A :: B :: x :: line number 4"⟩] := by
  have plain : ∀ operation ∈ [.add "A::x" 0, .reset, .add "A" 1, .add "A::B::x" 2,
      .addPath ["A"] 3, .addPath ["A", "B", "x"] 4], Operation.Plain operation := by
    simp only [List.forall_mem_cons, Operation.Plain, PlainPath, Plain, List.not_mem_nil,
      false_implies, implies_true, and_true, true_and]
    decide
  exact ⟨plain, index_agrees_after _ plain⟩

end Builder

end CommentOutline.Outline
