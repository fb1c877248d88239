import CommentOutline.Proofs.Outline.Realization
import CommentOutline.Proofs.Outline.Walk

set_option autoImplicit false

/-! Places that can be seen. A place in a plan is shown if it is at the top, or below the group of a
place that is shown. A walk over the forest of a builder visits exactly the places that its plan
shows. -/

namespace CommentOutline.Outline

open List (Forall₂)

namespace Plan

inductive Shown (plan : Plan) : Slot → Prop
  | root {slot : Slot} : slot ∈ plan.roots → Shown plan slot
  | inside {key : String} {slot : Slot} :
      Shown plan (.group key) → slot ∈ plan.below key → Shown plan slot

/-- Something stands below every group. -/
def Full (plan : Plan) : Prop :=
  ∀ key, (plan.group? key).isSome = true → plan.below key ≠ []

end Plan

variable {builder : Builder} {plan : Plan}

theorem exists_right {α β : Type} {relation : α → β → Prop} {as : List α} {bs : List β}
    (matched : Forall₂ relation as bs) {a : α} (member : a ∈ as) : ∃ b ∈ bs, relation a b := by
  induction matched with
  | nil => cases member
  | cons first _ ih =>
      rcases List.mem_cons.mp member with rfl | later
      · exact ⟨_, List.mem_cons_self, first⟩
      · obtain ⟨b, inside, related⟩ := ih later
        exact ⟨b, List.mem_cons_of_mem _ inside, related⟩

theorem exists_left {α β : Type} {relation : α → β → Prop} {as : List α} {bs : List β}
    (matched : Forall₂ relation as bs) {b : β} (member : b ∈ bs) : ∃ a ∈ as, relation a b :=
  exists_right matched.flip member

theorem Builder.Realizes.nodeAt?_of_holds (real : builder.Realizes plan) {id : Nat} {slot : Slot}
    (holds : builder.Holds id slot) : ∃ node, builder.nodeAt? id = some node := by
  obtain ⟨cell, present, _⟩ := real.key_of_holds holds
  exact ⟨_, builder.nodeAt?_of_cell present⟩

theorem Builder.mem_view_iff (grows : Grows builder.cells) (ids : List Nat) (node : Node) :
    node ∈ builder.view ids ↔ ∃ id ∈ ids, builder.nodeAt? id = some node := by
  rw [builder.view_eq_filterMap grows, List.mem_filterMap]

def Brief.node (brief : Brief) : Node := ⟨brief.label, brief.line, brief.key, []⟩

theorem Builder.Realizes.nodeAt?_entry (real : builder.Realizes plan) {id : Nat} {brief : Brief}
    (holds : builder.Holds id (.entry brief)) : builder.nodeAt? id = some brief.node := by
  rw [builder.nodeAt?_of_cell holds.1]
  have childless : builder.view [] = [] := builder.view_eq_filterMap real.grows []
  rw [childless]
  rfl

theorem Builder.Realizes.shown_of_visits (real : builder.Realizes plan) (id : Nat) :
    ∀ (slot : Slot) (top node : Node), plan.Shown slot → builder.Holds id slot →
      builder.nodeAt? id = some top → node ∈ visits top →
      ∃ slot' id', plan.Shown slot' ∧ builder.Holds id' slot' ∧
        builder.nodeAt? id' = some node := by
  induction id using real.grows.induction with
  | step id ih =>
      intro slot top node shown holds here visited
      rw [visits_eq, List.mem_cons] at visited
      rcases visited with rfl | below
      · exact ⟨slot, id, shown, holds, here⟩
      · cases slot with
        | entry brief =>
            rw [real.nodeAt?_entry holds, Option.some.injEq] at here
            rw [← here] at below
            cases below
        | group key =>
            obtain ⟨cell, present, carries⟩ := real.group key id holds
            rw [builder.nodeAt?_of_cell present, Option.some.injEq] at here
            rw [← here, mem_visitsAll_iff] at below
            obtain ⟨under, inside, visited⟩ := below
            obtain ⟨child, isChild, there⟩ := (Builder.mem_view_iff real.grows _ _).mp inside
            obtain ⟨slot', stands, holds'⟩ := exists_right carries.children isChild
            exact ih cell present child isChild slot' under node (.inside shown stands) holds' there
              visited

theorem Builder.Realizes.visits_of_shown (real : builder.Realizes plan) {slot : Slot}
    (shown : plan.Shown slot) :
    ∃ id node, builder.Holds id slot ∧ builder.nodeAt? id = some node ∧
      node ∈ visitsAll builder.forest := by
  induction shown with
  | root stands =>
      obtain ⟨id, isRoot, holds⟩ := exists_left real.roots stands
      obtain ⟨node, here⟩ := real.nodeAt?_of_holds holds
      refine ⟨id, node, holds, here, (mem_visitsAll_iff _ _).mpr ⟨node, ?_, mem_visits_self node⟩⟩
      exact (Builder.mem_view_iff real.grows _ _).mpr ⟨id, isRoot, here⟩
  | @inside key slot _ stands ih =>
      obtain ⟨id, top, holds, here, visited⟩ := ih
      obtain ⟨cell, present, carries⟩ := real.group key id holds
      rw [builder.nodeAt?_of_cell present, Option.some.injEq] at here
      obtain ⟨child, isChild, holds'⟩ := exists_left carries.children stands
      obtain ⟨node, there⟩ := real.nodeAt?_of_holds holds'
      refine ⟨child, node, holds', there, visitsAll_trans top node _ visited ?_⟩
      apply mem_visits_of_mem_children
      rw [← here]
      exact (Builder.mem_view_iff real.grows _ _).mpr ⟨child, isChild, there⟩

theorem Builder.Realizes.children_ne_nil (real : builder.Realizes plan) (full : plan.Full)
    {key : String} {id : Nat} {node : Node} (holds : builder.Holds id (.group key))
    (here : builder.nodeAt? id = some node) : node.children ≠ [] := by
  obtain ⟨cell, present, carries⟩ := real.group key id holds
  obtain ⟨slot, stands⟩ := List.exists_mem_of_ne_nil _ (full key (by rw [carries.named]; rfl))
  obtain ⟨child, inside, holdsChild⟩ := exists_left carries.children stands
  obtain ⟨under, there⟩ := real.nodeAt?_of_holds holdsChild
  rw [builder.nodeAt?_of_cell present, Option.some.injEq] at here
  rw [← here]
  exact List.ne_nil_of_mem ((Builder.mem_view_iff real.grows _ _).mpr ⟨child, inside, there⟩)

theorem Builder.Realizes.shown_of_visitsAll (real : builder.Realizes plan) {node : Node}
    (visited : node ∈ visitsAll builder.forest) :
    ∃ slot id, plan.Shown slot ∧ builder.Holds id slot ∧ builder.nodeAt? id = some node := by
  obtain ⟨top, isTop, reached⟩ := (mem_visitsAll_iff _ _).mp visited
  obtain ⟨root, isRoot, there⟩ := (Builder.mem_view_iff real.grows _ _).mp isTop
  obtain ⟨slot, stands, holds⟩ := exists_right real.roots isRoot
  exact real.shown_of_visits root slot top node (.root stands) holds there reached

theorem Builder.Realizes.childless_iff (real : builder.Realizes plan) (full : plan.Full)
    (node : Node) :
    node ∈ visitsAll builder.forest ∧ node.children = [] ↔
      ∃ brief, plan.Shown (.entry brief) ∧ node = brief.node := by
  constructor
  · intro given
    rcases given with ⟨visited, childless⟩
    obtain ⟨slot, id, shown, holds, here⟩ := real.shown_of_visitsAll visited
    cases slot with
    | entry brief =>
        rw [real.nodeAt?_entry holds, Option.some.injEq] at here
        exact ⟨brief, shown, here.symm⟩
    | group key => exact absurd childless (real.children_ne_nil full holds here)
  · intro given
    rcases given with ⟨brief, shown, rfl⟩
    obtain ⟨id, node, holds, here, visited⟩ := real.visits_of_shown shown
    rw [real.nodeAt?_entry holds, Option.some.injEq] at here
    rw [here]
    exact ⟨visited, by rw [← here]; rfl⟩

/-- The nodes of a forest with children are the groups in the index, if the plan shows all its
groups. -/
theorem Builder.Realizes.indexed_iff (real : builder.Realizes plan) (full : plan.Full)
    (shown : ∀ key, (plan.group? key).isSome = true → plan.Shown (.group key)) (node : Node) :
    (∃ key, builder.findContainer? key = some node) ↔
      node ∈ visitsAll builder.forest ∧ node.children ≠ [] := by
  simp only [builder.findContainer?_eq_some_iff real.grows]
  constructor
  · intro given
    rcases given with ⟨key, id, found, here⟩
    have holdsGroup : builder.Holds id (.group key) := found
    have known : (plan.group? key).isSome = true := by
      rw [real.isSome_group?, found]
      rfl
    obtain ⟨other, visitedNode, holds, there, visited⟩ := real.visits_of_shown (shown key known)
    have same : id = other := Option.some.inj (found.symm.trans holds)
    rw [← same, here, Option.some.injEq] at there
    rw [← there] at visited
    exact ⟨visited, real.children_ne_nil full holdsGroup here⟩
  · intro given
    rcases given with ⟨visited, some_child⟩
    obtain ⟨slot, id, -, holds, here⟩ := real.shown_of_visitsAll visited
    cases slot with
    | entry brief =>
        rw [real.nodeAt?_entry holds, Option.some.injEq] at here
        rw [← here] at some_child
        exact absurd rfl some_child
    | group key => exact ⟨key, id, holds, here⟩

end CommentOutline.Outline
