import CommentOutline.Proofs.Outline.History
import CommentOutline.Proofs.Outline.Places

set_option autoImplicit false

/-! The cells of entries. An annotation makes groups as it needs them, and the cell of its entry
last. What stands in an outline is a group of the index or the cell of an entry, and no entry ever
gets into the index or has anything below it. -/

namespace CommentOutline.Outline

open List (Forall₂)

/-- A reset, a label for the standard separator, or a path of labels without it. -/
def Operation.Plain : Operation → Prop
  | .reset | .add .. => True
  | .addPath segments _ => segments ≠ [] ∧ PlainPath segments
  | .separate _ | .build _ => False

/-- The entry at the end of a path below the group with the given key. -/
def leafBelow? (line : Int) : (parent : String) → List String → Option Brief
  | _, [] => none
  | parent, [label] => some ⟨label, line, leafKey parent label line⟩
  | parent, label :: next :: rest => leafBelow? line (containerKey parent label) (next :: rest)

/-- The entry of a path; a path of one label has none. -/
def pathLeaf? (line : Int) : List String → Option Brief
  | [] => none
  | top :: rest => leafBelow? line top rest

def Operation.added? : Operation → Option Brief
  | .add label line =>
      if Text.contains label "::" then pathLeaf? line (Builder.segments "::" label)
      else some ⟨label, line, label⟩
  | .addPath segments line => pathLeaf? line segments
  | .separate _ | .reset | .build _ => none

namespace Builder

/-- The cell of an entry that was added just now, if one was. -/
def lastCell? (builder : Builder) (added? : Option Brief) : Option Nat :=
  added?.map fun _ => builder.cells.length - 1

/-- The cells of the entries that operations add, the first one first. -/
def entriesAfter (builder : Builder) : List Operation → List Nat
  | [] => []
  | operation :: operations =>
      let next := (builder.perform operation).1
      (next.lastCell? operation.added?).toList ++ next.entriesAfter operations

/-- A cell that the index or the list of entries accounts for. -/
def Known (builder : Builder) (entries : List Nat) (id : Nat) : Prop :=
  id ∈ entries ∨ ∃ key, builder.containers.lookup key = some id

/-- The listed cells hold the entries, and all that stands in the outline is accounted for. -/
structure Booked (builder : Builder) (entries : List Nat) (briefs : List Brief) : Prop where
  index : ∀ key id, builder.containers.lookup key = some id → id < builder.cells.length
  entry : Forall₂ (fun id brief => builder.Holds id (.entry brief)) entries briefs
  roots : ∀ id ∈ builder.roots, builder.Known entries id
  children : ∀ key id cell, builder.containers.lookup key = some id →
    builder.cells[id]? = some cell → ∀ child ∈ cell.children, builder.Known entries child

variable {builder : Builder} {entries : List Nat} {briefs : List Brief}

theorem Known.more {id : Nat} (known : builder.Known entries id) (others : List Nat) :
    builder.Known (entries ++ others) id :=
  known.imp_left (List.mem_append_left others)

theorem Booked.not_indexed (booked : builder.Booked entries briefs) {id : Nat}
    (member : id ∈ entries) (key : String) : builder.containers.lookup key ≠ some id := by
  obtain ⟨brief, -, holds⟩ := exists_right booked.entry member
  exact holds.2 key

theorem booked_start (separator : Separator) : (start separator).Booked [] [] where
  index := fun _ _ found => nomatch found
  entry := .nil
  roots := fun _ member => nomatch member
  children := fun _ _ _ found => nomatch found

/-! ### Changes of the store -/

theorem Booked.reset (booked : builder.Booked entries briefs) :
    builder.reset.Booked entries briefs where
  index := fun _ _ found => nomatch found
  entry := booked.entry.imp fun _ _ holds => ⟨holds.1, fun _ found => nomatch found⟩
  roots := fun _ member => nomatch member
  children := fun _ _ _ found => nomatch found

theorem Booked.makeGroup (booked : builder.Booked entries briefs) (brief : Brief) :
    (builder.makeGroup brief).Booked entries briefs := by
  have longer : (builder.makeGroup brief).cells.length = builder.cells.length + 1 :=
    List.length_append
  have found_cases : ∀ key id, (builder.makeGroup brief).containers.lookup key = some id →
      builder.containers.lookup key = some id ∨ id = builder.cells.length := by
    intro key id found
    rw [lookup_makeGroup, Option.or_eq_some_iff] at found
    refine found.imp_right fun given => ?_
    split at given
    · exact (Option.some.inj given.2).symm
    · cases given.2
  have stays : ∀ id, builder.Known entries id → (builder.makeGroup brief).Known entries id := by
    intro id known
    refine known.imp_right ?_
    rintro ⟨key, found⟩
    exact ⟨key, by rw [lookup_makeGroup, found, Option.some_or]⟩
  constructor
  · intro key id found
    rcases found_cases key id found with old | rfl
    · have bound := booked.index key id old
      omega
    · omega
  · exact booked.entry.imp fun _ _ holds => holds.extend (extends_makeGroup builder brief)
  · exact fun id member => stays id (booked.roots id member)
  · intro key id cell found present child inside
    rcases found_cases key id found with old | rfl
    · have there : builder.cells[id]? = some cell := by
        rw [← present]
        exact (List.getElem?_append_left (booked.index key id old)).symm
      exact stays child (booked.children key id cell old there child inside)
    · have fresh : (builder.makeGroup brief).cells[builder.cells.length]? =
          some ⟨brief.label, brief.line, brief.key, []⟩ := List.getElem?_concat_length
      rw [present, Option.some.injEq] at fresh
      rw [fresh] at inside
      cases inside

theorem Booked.newCell (booked : builder.Booked entries briefs) (brief : Brief) :
    (builder.newCell brief.label brief.line brief.key).2.Booked (entries ++ [builder.cells.length])
      (briefs ++ [brief]) where
  index := by
    intro key id found
    have bound := booked.index key id found
    rw [Builder.newCell, List.length_append]
    exact Nat.lt_add_right _ bound
  entry := by
    have earlier := booked.entry.imp fun _ _ holds =>
      holds.extend (extends_newCell builder brief.label brief.line brief.key)
    refine List.rel_append earlier (.cons ⟨List.getElem?_concat_length, ?_⟩ .nil)
    exact fun key found => Nat.lt_irrefl _ (booked.index key _ found)
  roots := fun id member => (booked.roots id member).more _
  children := by
    intro key id cell found present child inside
    have there : builder.cells[id]? = some cell := by
      rw [← present]
      exact (List.getElem?_append_left (booked.index key id found)).symm
    exact (booked.children key id cell found there child inside).more _

theorem Booked.addRoot (booked : builder.Booked entries briefs) {id : Nat}
    (known : builder.Known entries id) : (builder.addRoot id).Booked entries briefs where
  index := booked.index
  entry := booked.entry.imp fun _ _ holds => holds.extend (extends_addRoot builder id)
  roots := by
    intro root member
    rcases List.mem_append.mp member with old | new
    · exact booked.roots root old
    · rw [List.mem_singleton.mp new]
      exact known
  children := booked.children

theorem Booked.append (booked : builder.Booked entries briefs) {parent : String}
    {above child : Nat} (found : builder.containers.lookup parent = some above)
    (known : builder.Known entries child) : (builder.append above child).Booked entries briefs where
  index := by
    intro key id indexed
    rw [Builder.append, List.length_modify]
    exact booked.index key id indexed
  entry := booked.entry.imp fun _ _ holds => holds.extend (extends_append builder found child)
  roots := booked.roots
  children := by
    intro key id cell indexed present under inside
    have there := List.getElem?_eq_getElem (booked.index key id indexed)
    by_cases same : above = id
    · subst id
      have changed := getElem?_withChild_self there child
      cases changed.symm.trans present
      rcases List.mem_append.mp inside with earlier | new
      · exact booked.children key above _ indexed there under earlier
      · rw [List.mem_singleton.mp new]
        exact known
    · have kept := (getElem?_withChild_other builder.cells same child).trans there
      cases kept.symm.trans present
      exact booked.children key id _ indexed there under inside

theorem Booked.container (booked : builder.Booked entries briefs) (label : String) (line : Int)
    (key : String) : (builder.container label line key).2.Booked entries briefs := by
  unfold Builder.container
  split
  · exact booked
  · exact booked.makeGroup ⟨label, line, key⟩

theorem Booked.offer (booked : builder.Booked entries briefs) {parent key : String}
    {above child : Nat} (found : builder.containers.lookup parent = some above)
    (known : builder.containers.lookup key = some child) :
    (builder.offer above child key).Booked entries briefs := by
  unfold Builder.offer
  split
  · exact booked
  · exact booked.append found (Or.inr ⟨key, known⟩)

theorem containers_offer (builder : Builder) (above child : Nat) (key : String) :
    (builder.offer above child key).containers = builder.containers := by
  unfold Builder.offer
  split <;> rfl

theorem Booked.topContainer (booked : builder.Booked entries briefs) (label : String)
    (line : Int) : (builder.topContainer label line).Booked entries briefs := by
  unfold Builder.topContainer
  split
  · exact booked
  · rename_i absent
    have fresh := lookup_makeGroup builder ⟨label, line, label⟩ label
    rw [absent, Option.none_or, if_pos rfl] at fresh
    exact (booked.makeGroup ⟨label, line, label⟩).addRoot (Or.inr ⟨label, fresh⟩)

/-! ### Annotations -/

/-- An entry that was added just now, if one was, has the last cell. -/
abbrev Gains (builder : Builder) (entries : List Nat) (briefs : List Brief)
    (added? : Option Brief) : Prop :=
  builder.Booked (entries ++ (builder.lastCell? added?).toList) (briefs ++ added?.toList)

theorem Booked.gains_none (booked : builder.Booked entries briefs) :
    builder.Gains entries briefs none := by
  rw [Gains, lastCell?, Option.map_none, Option.toList_none, Option.toList_none, List.append_nil,
    List.append_nil]
  exact booked

theorem Booked.flat (booked : builder.Booked entries briefs) (label : String) (line : Int) :
    (builder.addFlat label line).Gains entries briefs (some ⟨label, line, label⟩) := by
  have longer : (builder.addFlat label line).cells.length - 1 = builder.cells.length := by
    rw [addFlat, Builder.addRoot, Builder.newCell, List.length_append]
    rfl
  rw [Gains, lastCell?, Option.map_some, longer]
  exact (booked.newCell ⟨label, line, label⟩).addRoot (Or.inl List.mem_concat_self)

theorem Booked.leaf (booked : builder.Booked entries briefs) {parent : String} {above : Nat}
    (found : builder.containers.lookup parent = some above) (brief : Brief) :
    ((builder.newCell brief.label brief.line brief.key).2.append above builder.cells.length).Gains
      entries briefs (some brief) := by
  have longer : ((builder.newCell brief.label brief.line brief.key).2.append above
      builder.cells.length).cells.length - 1 = builder.cells.length := by
    rw [Builder.append, List.length_modify, Builder.newCell, List.length_append]
    rfl
  rw [Gains, lastCell?, Option.map_some, longer]
  exact (booked.newCell brief).append found (Or.inl List.mem_concat_self)

theorem Booked.addBelow (booked : builder.Booked entries briefs) (line : Int) (parent : String)
    (labels : List String) (known : (builder.containers.lookup parent).isSome = true) :
    ∃ next, addBelow line parent labels builder = .ok next ∧
      next.Gains entries briefs (leafBelow? line parent labels) := by
  induction labels generalizing builder parent with
  | nil => exact ⟨builder, rfl, booked.gains_none⟩
  | cons label rest ih =>
      obtain ⟨above, found⟩ := Option.isSome_iff_exists.mp known
      cases rest with
      | nil =>
          refine ⟨_, ?_, booked.leaf found ⟨label, line, leafKey parent label line⟩⟩
          simp only [Builder.addBelow, Builder.newCell, found]
      | cons next rest =>
          obtain ⟨made, indexed⟩ :=
            changes_container builder label line (containerKey parent label)
          have parentStays := made.lookup found
          have hung := (booked.container label line (containerKey parent label)).offer parentStays
            indexed
          obtain ⟨last, done, gains⟩ := ih hung (containerKey parent label)
            (by rw [containers_offer, indexed]; rfl)
          refine ⟨last, ?_, gains⟩
          simp only [Builder.addBelow, parentStays]
          exact done

theorem Booked.addPath (booked : builder.Booked entries briefs) {labels : List String}
    (some_label : labels ≠ []) (line : Int) :
    ∃ next, builder.addPath labels line = .ok next ∧
      next.Gains entries briefs (pathLeaf? line labels) := by
  obtain ⟨top, rest, rfl⟩ := List.exists_cons_of_ne_nil some_label
  exact (booked.topContainer top line).addBelow line top rest
    (changes_topContainer builder top line).2

theorem Booked.perform (booked : builder.Booked entries briefs)
    (token : builder.separator = .token "::") {operation : Operation} (plain : operation.Plain) :
    (builder.perform operation).1.Gains entries briefs operation.added? := by
  cases operation with
  | separate separator => exact absurd plain id
  | build pairs => exact absurd plain id
  | reset => exact booked.reset.gains_none
  | addPath labels line =>
      obtain ⟨next, done, gains⟩ := booked.addPath plain.1 line
      rw [Builder.perform, done]
      exact gains
  | add label line =>
      rw [Builder.perform, add_of_token token (by decide), Operation.added?]
      split
      · obtain ⟨next, done, gains⟩ := booked.addPath (segments_ne_nil "::" label) line
        rw [done]
        exact gains
      · exact booked.flat label line

end Builder

end CommentOutline.Outline
