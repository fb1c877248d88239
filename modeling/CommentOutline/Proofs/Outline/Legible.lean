import CommentOutline.Outline.Rendering
import CommentOutline.Proofs.Outline.Path
import CommentOutline.Proofs.Outline.Unfolding

set_option autoImplicit false

/-! Outlines read back from their renderings. A line of a rendering ends in its line number, and
a label that stays on its line and begins without two blanks can be told from the indent before it.
The depths in the order of the walk tell which nodes stand below which, so two outlines with one
rendering have the same labels and lines in the same places. Only the keys are not shown. -/

namespace CommentOutline.Outline

open Text (isBlank joinLines strip stripChars)

/-! ### Labels -/

/-- A label that stays on one line and has no blanks at its ends, or is a blank and nothing else. -/
structure Legible (label : String) : Prop where
  oneLine : '\n' ∉ label.toList
  trimmed : strip label = label ∨ ∃ c, isBlank c = true ∧ label.toList = [c]

instance (label : String) : Decidable (Legible label) :=
  decidable_of_iff ('\n' ∉ label.toList ∧
      (strip label = label ∨ label.toList.length = 1 ∧ label.toList.all isBlank = true)) <| by
    constructor
    · intro given
      rcases given with ⟨oneLine, trimmed⟩
      refine ⟨oneLine, trimmed.imp_right ?_⟩
      intro given
      rcases given with ⟨single, blank⟩
      obtain ⟨c, only⟩ := List.length_eq_one_iff.mp single
      rw [only, List.all_cons, List.all_nil, Bool.and_true] at blank
      exact ⟨c, blank, only⟩
    · intro legible
      refine ⟨legible.oneLine, legible.trimmed.imp_right ?_⟩
      intro given
      rcases given with ⟨c, blank, only⟩
      rw [only, List.all_cons, List.all_nil, Bool.and_true]
      exact ⟨rfl, blank⟩

theorem Legible.not_two_blanks {label : String} (legible : Legible label) :
    ¬ [' ', ' '] <+: label.toList := by
  intro begins
  obtain ⟨rest, split⟩ := begins
  rcases legible.trimmed with same | ⟨c, -, only⟩
  · have stripped := congrArg String.toList same
    rw [strip, String.toList_ofList, Text.stripChars_eq_self_iff] at stripped
    exact absurd (stripped.1 ' ' _ split.symm) (by decide)
  · have lengths := congrArg List.length (split.trans only)
    simp only [List.length_append, List.length_cons, List.length_nil] at lengths
    omega

theorem Legible.segment {label : String} (legible : Legible label) {separator segment : String}
    (member : segment ∈ Builder.segments separator label) : Legible segment := by
  unfold Builder.segments Text.split at member
  obtain ⟨piece, listed, rfl⟩ := List.mem_map.mp member
  obtain ⟨chars, cut, rfl⟩ := List.mem_map.mp listed
  refine ⟨?_, Or.inl (Text.strip_strip _)⟩
  intro inside
  rw [strip, String.toList_ofList, String.toList_ofList] at inside
  exact legible.oneLine
    (Text.subset_of_mem_splitFrom cut ((Text.stripChars_infix chars).subset inside))

/-! ### Lines of a rendering -/

/-- A line of a rendering, with what stands before the label and what leads to the line number. -/
def written (bullet tag : List Char) (depth : Nat) (node : Brief) : List Char :=
  indent depth ++ (bullet ++ node.label.toList) ++ tag ++ (node.line + 1).repr.toList ++ [')']

def rendering (bullet tag : List Char) (forest : List Node) : String :=
  String.ofList (joinLines ((leveledAll 0 forest).map fun row => written bullet tag row.1 row.2))

/-- What makes lines readable: the number stands behind the last place of some mark, and the label
does not go on with the indent. -/
structure Format (bullet tag : List Char) : Prop where
  bulletOneLine : '\n' ∉ bullet
  tagOneLine : '\n' ∉ tag
  ends : ∃ front mark, tag = front ++ [mark] ∧ mark.isDigit = false ∧ mark ≠ '-'
  stays : ∀ label, Legible label → ¬ [' ', ' '] <+: bullet ++ label.toList

theorem format_text : Format [] " (line ".toList where
  bulletOneLine := by decide
  tagOneLine := by decide
  ends := ⟨" (line".toList, ' ', by decide, by decide, by decide⟩
  stays := fun _ legible => legible.not_two_blanks

theorem format_markdown : Format "- ".toList " (L".toList where
  bulletOneLine := by decide
  tagOneLine := by decide
  ends := ⟨" (".toList, 'L', by decide, by decide, by decide⟩
  stays := by
    intro label _ begins
    have dash : "- ".toList = ['-', ' '] := by decide
    rw [dash, List.cons_append, List.cons_prefix_cons] at begins
    exact absurd begins.1 (by decide)

theorem renderText_eq (forest : List Node) :
    renderText forest = rendering [] " (line ".toList forest :=
  rfl

theorem renderMarkdown_eq (forest : List Node) :
    renderMarkdown forest = rendering "- ".toList " (L".toList forest := by
  unfold renderMarkdown rendering bulletLine written
  simp only [List.append_assoc]
  rfl

theorem indent_succ_append (depth : Nat) (cs : List Char) :
    indent (depth + 1) ++ cs = ' ' :: ' ' :: (indent depth ++ cs) := by
  rw [indent, Nat.mul_succ, List.replicate_succ, List.replicate_succ]
  rfl

theorem indent_cancel {depth depth' : Nat} {cs cs' : List Char} (stays : ¬ [' ', ' '] <+: cs)
    (stays' : ¬ [' ', ' '] <+: cs') (same : indent depth ++ cs = indent depth' ++ cs') :
    depth = depth' ∧ cs = cs' := by
  induction depth generalizing depth' with
  | zero =>
      cases depth' with
      | zero => exact ⟨rfl, same⟩
      | succ depth' =>
          rw [indent_succ_append] at same
          exact absurd ⟨_, same.symm⟩ stays
  | succ depth ih =>
      cases depth' with
      | zero =>
          rw [indent_succ_append] at same
          exact absurd ⟨_, same⟩ stays'
      | succ depth' =>
          rw [indent_succ_append, indent_succ_append] at same
          obtain ⟨rfl, rest⟩ := ih (List.cons.inj (List.cons.inj same).2).2
          exact ⟨rfl, rest⟩

variable {bullet tag : List Char}

theorem Format.written_cancel (format : Format bullet tag) {depth depth' : Nat}
    {node node' : Brief} (legible : Legible node.label) (legible' : Legible node'.label)
    (same : written bullet tag depth node = written bullet tag depth' node') :
    depth = depth' ∧ node.label = node'.label ∧ node.line = node'.line := by
  obtain ⟨front, mark, rfl, noDigit, noSign⟩ := format.ends
  have parted : ∀ (depth : Nat) (node : Brief), written bullet (front ++ [mark]) depth node =
      (indent depth ++ (bullet ++ node.label.toList) ++ front ++
        mark :: (node.line + 1).repr.toList) ++ [')'] := by
    intro depth node
    simp only [written, List.append_assoc, List.singleton_append]
  rw [parted, parted] at same
  obtain ⟨fronts, numbers⟩ := Text.append_cons_cancel_last (notMem_repr noDigit noSign _)
    (notMem_repr noDigit noSign _) (List.append_cancel_right same)
  obtain ⟨depths, labels⟩ := indent_cancel (format.stays _ legible) (format.stays _ legible')
    (List.append_cancel_right fronts)
  have next := repr_inj (String.toList_inj.mp numbers)
  exact ⟨depths, String.toList_inj.mp (List.append_cancel_left labels), by omega⟩

theorem Format.notMem_written (format : Format bullet tag) (depth : Nat) {node : Brief}
    (oneLine : '\n' ∉ node.label.toList) : '\n' ∉ written bullet tag depth node := by
  have blanks : '\n' ∉ indent depth := by
    intro inside
    exact absurd (List.eq_of_mem_replicate inside) (by decide)
  have number : '\n' ∉ (node.line + 1).repr.toList := notMem_repr (by decide) (by decide) _
  unfold written
  simp only [List.mem_append, not_or]
  exact ⟨⟨⟨⟨blanks, format.bulletOneLine, oneLine⟩, format.tagOneLine⟩, number⟩, by decide⟩

theorem written_ne_nil (depth : Nat) (node : Brief) : written bullet tag depth node ≠ [] :=
  List.concat_ne_nil _ _

/-! ### Lines put together -/

theorem joinLines_ne_nil {line : List Char} (lines : List (List Char)) (nonempty : line ≠ []) :
    joinLines (line :: lines) ≠ [] := by
  cases lines with
  | nil => exact nonempty
  | cons next lines => exact List.append_ne_nil_of_left_ne_nil nonempty _

theorem joinLines_eq_intercalate (lines : List (List Char)) :
    joinLines lines = ['\n'].intercalate lines := by
  induction lines with
  | nil => rfl
  | cons line lines ih =>
      cases lines with
      | nil => rw [joinLines, List.intercalate_singleton]
      | cons next lines =>
          rw [joinLines, ih, List.intercalate_cons_cons, List.append_assoc]
          rfl

theorem splitOn_joinLines {lines : List (List Char)} (clear : ∀ line ∈ lines, '\n' ∉ line)
    (some_line : lines ≠ []) : (joinLines lines).splitOn '\n' = lines := by
  rw [joinLines_eq_intercalate]
  exact List.splitOn_intercalate '\n' clear some_line

theorem joinLines_cancel {lines lines' : List (List Char)}
    (clear : ∀ line ∈ lines, line ≠ [] ∧ '\n' ∉ line)
    (clear' : ∀ line ∈ lines', line ≠ [] ∧ '\n' ∉ line)
    (same : joinLines lines = joinLines lines') : lines = lines' := by
  cases lines with
  | nil =>
      cases lines' with
      | nil => rfl
      | cons line' lines' =>
          exact absurd same.symm (joinLines_ne_nil lines' (clear' line' List.mem_cons_self).1)
  | cons line lines =>
      cases lines' with
      | nil => exact absurd same (joinLines_ne_nil lines (clear line List.mem_cons_self).1)
      | cons line' lines' =>
          have apart := congrArg (List.splitOn '\n') same
          rwa [splitOn_joinLines (fun _ inside => (clear _ inside).2) (List.cons_ne_nil _ _),
            splitOn_joinLines (fun _ inside => (clear' _ inside).2) (List.cons_ne_nil _ _)] at apart

/-! ### From depths to forests -/

/-- What follows the nodes at some depth goes back to a lesser depth. -/
def Returns (depth : Nat) (rest : List (Nat × Brief)) : Prop :=
  ∀ row ∈ rest.head?, row.1 < depth

theorem Returns.nil (depth : Nat) : Returns depth [] := by
  intro row inside
  cases inside

/-- What follows the children of a node goes back to the depth of the node. -/
theorem Returns.behind_children {depth : Nat} {rest : List (Nat × Brief)}
    (returns : Returns depth rest) (nodes : List Node) :
    Returns (depth + 1) (leveledAll depth nodes ++ rest) := by
  cases nodes with
  | nil => exact fun row inside => Nat.lt_succ_of_lt (returns row inside)
  | cons node nodes =>
      obtain ⟨label, line, key, children⟩ := node
      intro row inside
      rw [leveledAll, leveled] at inside
      cases inside
      exact Nat.lt_succ_self depth

theorem Returns.ne_leveledAll_cons {depth : Nat} {rest rest' : List (Nat × Brief)}
    (returns : Returns depth rest) (node : Node) (nodes : List Node) :
    rest ≠ leveledAll depth (node :: nodes) ++ rest' := by
  obtain ⟨label, line, key, children⟩ := node
  rintro rfl
  rw [leveledAll, leveled] at returns
  exact absurd (returns _ rfl) (Nat.lt_irrefl depth)

mutual

theorem leveled_cancel : (depth : Nat) → (node node' : Node) →
    (rest rest' : List (Nat × Brief)) → Returns (depth + 1) rest → Returns (depth + 1) rest' →
    leveled depth node ++ rest = leveled depth node' ++ rest' → node = node' ∧ rest = rest'
  | depth, ⟨label, line, key, children⟩, ⟨label', line', key', children'⟩, rest, rest', returns,
      returns', same => by
      rw [leveled, leveled, List.cons_append, List.cons_append] at same
      obtain ⟨first, below⟩ := List.cons.inj same
      obtain ⟨inside, behind⟩ :=
        leveledAll_cancel (depth + 1) children children' rest rest' returns returns' below
      simp only [Prod.mk.injEq, Brief.mk.injEq, true_and] at first
      obtain ⟨rfl, rfl, rfl⟩ := first
      rw [inside]
      exact ⟨rfl, behind⟩

/-- The depths tell where a forest ends, and which nodes stand below which. -/
theorem leveledAll_cancel : (depth : Nat) → (nodes nodes' : List Node) →
    (rest rest' : List (Nat × Brief)) → Returns depth rest → Returns depth rest' →
    leveledAll depth nodes ++ rest = leveledAll depth nodes' ++ rest' →
    nodes = nodes' ∧ rest = rest'
  | _, [], [], _, _, _, _, same => ⟨rfl, same⟩
  | _, [], node' :: nodes', _, _, returns, _, same =>
      absurd same (returns.ne_leveledAll_cons node' nodes')
  | _, node :: nodes, [], _, _, _, returns', same =>
      absurd same.symm (returns'.ne_leveledAll_cons node nodes)
  | depth, node :: nodes, node' :: nodes', rest, rest', returns, returns', same => by
      rw [leveledAll, leveledAll, List.append_assoc, List.append_assoc] at same
      obtain ⟨first, later⟩ := leveled_cancel depth node node' _ _
        (returns.behind_children nodes) (returns'.behind_children nodes') same
      obtain ⟨others, behind⟩ :=
        leveledAll_cancel depth nodes nodes' rest rest' returns returns' later
      rw [first, others]
      exact ⟨rfl, behind⟩

end

theorem leveledAll_injective (depth : Nat) : Function.Injective (leveledAll depth) := by
  intro nodes nodes' same
  have alone : leveledAll depth nodes ++ [] = leveledAll depth nodes' ++ [] := by rw [same]
  exact (leveledAll_cancel depth nodes nodes' [] [] (.nil depth) (.nil depth) alone).1

/-! ### Forests without keys -/

def Brief.unkeyed (brief : Brief) : Brief := { brief with key := "" }

mutual

/-- The node as a reader of a rendering knows it: without its key, and so all below it. -/
def unkey : Node → Node
  | ⟨label, line, _, children⟩ => ⟨label, line, "", unkeyAll children⟩

def unkeyAll : List Node → List Node
  | [] => []
  | node :: nodes => unkey node :: unkeyAll nodes

end

mutual

theorem leveled_unkey : (depth : Nat) → (node : Node) →
    leveled depth (unkey node) = (leveled depth node).map fun row => (row.1, row.2.unkeyed)
  | depth, ⟨label, line, key, children⟩ => by
      rw [unkey, leveled, leveled, List.map_cons, leveledAll_unkeyAll (depth + 1) children]
      rfl

theorem leveledAll_unkeyAll : (depth : Nat) → (nodes : List Node) →
    leveledAll depth (unkeyAll nodes) =
      (leveledAll depth nodes).map fun row => (row.1, row.2.unkeyed)
  | _, [] => rfl
  | depth, node :: nodes => by
      rw [unkeyAll, leveledAll, leveledAll, List.map_append, leveled_unkey depth node,
        leveledAll_unkeyAll depth nodes]

end

theorem rendering_unkeyAll (forest : List Node) :
    rendering bullet tag (unkeyAll forest) = rendering bullet tag forest := by
  rw [rendering, rendering, leveledAll_unkeyAll, List.map_map]
  rfl

/-! ### Renderings -/

theorem map_eq_map_of_forall {α β γ : Type} {f : α → β} {g : α → γ} {xs ys : List α}
    (each : ∀ x ∈ xs, ∀ y ∈ ys, f x = f y → g x = g y) (same : xs.map f = ys.map f) :
    xs.map g = ys.map g := by
  induction xs generalizing ys with
  | nil =>
      rw [List.map_nil, eq_comm, List.map_eq_nil_iff] at same
      rw [same]
  | cons x xs ih =>
      cases ys with
      | nil => cases same
      | cons y ys =>
          obtain ⟨first, rest⟩ := List.cons.inj same
          rw [List.map_cons, List.map_cons,
            each x List.mem_cons_self y List.mem_cons_self first,
            ih (fun a inside b inside' =>
              each a (List.mem_cons_of_mem _ inside) b (List.mem_cons_of_mem _ inside')) rest]

theorem brief_mem_walkAll {depth : Nat} {forest : List Node} {row : Nat × Brief}
    (inside : row ∈ leveledAll depth forest) : row.2 ∈ walkAll forest := by
  rw [← map_leveledAll depth forest]
  exact List.mem_map_of_mem inside

theorem Format.rendering_eq_iff (format : Format bullet tag) {forest forest' : List Node}
    (legible : ∀ brief ∈ walkAll forest, Legible brief.label)
    (legible' : ∀ brief ∈ walkAll forest', Legible brief.label) :
    rendering bullet tag forest = rendering bullet tag forest' ↔
      unkeyAll forest = unkeyAll forest' := by
  constructor
  · intro same
    have clear : ∀ {forest : List Node}, (∀ brief ∈ walkAll forest, Legible brief.label) →
        ∀ line ∈ (leveledAll 0 forest).map fun row => written bullet tag row.1 row.2,
          line ≠ [] ∧ '\n' ∉ line := by
      intro forest legible line inside
      obtain ⟨row, listed, rfl⟩ := List.mem_map.mp inside
      exact ⟨written_ne_nil _ _,
        format.notMem_written _ (legible _ (brief_mem_walkAll listed)).oneLine⟩
    have lines := joinLines_cancel (clear legible) (clear legible') (String.ofList_injective same)
    apply leveledAll_injective 0
    rw [leveledAll_unkeyAll, leveledAll_unkeyAll]
    apply map_eq_map_of_forall _ lines
    intro row listed row' listed' sameLine
    obtain ⟨depths, labels, numbers⟩ := format.written_cancel
      (legible _ (brief_mem_walkAll listed)) (legible' _ (brief_mem_walkAll listed')) sameLine
    rw [Brief.unkeyed, Brief.unkeyed, depths, labels, numbers]
  · intro same
    rw [← rendering_unkeyAll forest, same, rendering_unkeyAll]

theorem rendering_eq_empty_iff (forest : List Node) :
    rendering bullet tag forest = "" ↔ forest = [] := by
  cases forest with
  | nil => exact iff_of_true rfl rfl
  | cons node nodes =>
      obtain ⟨label, line, key, children⟩ := node
      refine iff_of_false ?_ (List.cons_ne_nil _ _)
      rw [rendering, leveledAll, leveled, List.cons_append, List.map_cons,
        ← String.toList_eq_nil_iff, String.toList_ofList]
      exact joinLines_ne_nil _ (written_ne_nil _ _)

end CommentOutline.Outline
