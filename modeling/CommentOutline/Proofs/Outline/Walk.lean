import CommentOutline.Outline.Node

set_option autoImplicit false

/-! The nodes of a forest with their children, in the order of a walk. -/

namespace CommentOutline.Outline

mutual

def visits : Node → List Node
  | ⟨label, line, key, children⟩ => ⟨label, line, key, children⟩ :: visitsAll children

def visitsAll : List Node → List Node
  | [] => []
  | node :: nodes => visits node ++ visitsAll nodes

end

mutual

theorem walk_eq_map_brief : (node : Node) → walk node = (visits node).map Node.brief
  | ⟨label, line, key, children⟩ => by
      rw [walk, visits, List.map_cons, walkAll_eq_map_brief children]
      rfl

theorem walkAll_eq_map_brief : (forest : List Node) →
    walkAll forest = (visitsAll forest).map Node.brief
  | [] => rfl
  | node :: nodes => by
      rw [walkAll, visitsAll, List.map_append, walk_eq_map_brief node, walkAll_eq_map_brief nodes]

end

theorem visits_eq (node : Node) : visits node = node :: visitsAll node.children := by
  cases node
  rw [visits]

theorem mem_visits_self (node : Node) : node ∈ visits node := by
  rw [visits_eq]
  exact List.mem_cons_self

theorem mem_visitsAll_iff (forest : List Node) (node : Node) :
    node ∈ visitsAll forest ↔ ∃ top ∈ forest, node ∈ visits top := by
  induction forest with
  | nil => simp [visitsAll]
  | cons first forest ih =>
      simp only [visitsAll, List.mem_append, ih, List.mem_cons, exists_eq_or_imp]

theorem mem_visitsAll_cons (node first : Node) (forest : List Node) :
    node ∈ visitsAll (first :: forest) ↔
      node = first ∨ node ∈ visitsAll first.children ∨ node ∈ visitsAll forest := by
  rw [visitsAll, visits_eq, List.mem_append, List.mem_cons, or_assoc]

mutual

theorem visits_trans (node under : Node) : (top : Node) → node ∈ visits top →
    under ∈ visits node → under ∈ visits top
  | ⟨label, line, key, children⟩, here, there => by
      rw [visits, List.mem_cons] at here
      rcases here with rfl | below
      · exact there
      · rw [visits]
        exact List.mem_cons_of_mem _ (visitsAll_trans node under children below there)

theorem visitsAll_trans (node under : Node) : (forest : List Node) → node ∈ visitsAll forest →
    under ∈ visits node → under ∈ visitsAll forest
  | [], here, _ => nomatch here
  | top :: forest, here, there => by
      rw [visitsAll, List.mem_append] at here ⊢
      rcases here with front | back
      · exact Or.inl (visits_trans node under top front there)
      · exact Or.inr (visitsAll_trans node under forest back there)

end

theorem mem_visits_of_mem_children {node child : Node} (inside : child ∈ node.children) :
    child ∈ visits node := by
  rw [visits_eq]
  exact List.mem_cons_of_mem _ ((mem_visitsAll_iff _ _).mpr ⟨child, inside, mem_visits_self child⟩)

end CommentOutline.Outline
