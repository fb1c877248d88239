import Mathlib.Data.List.Basic
import CommentOutline.Outline.Builder

set_option autoImplicit false

/-! The store of cells read as a forest. Every child has a longer key than its parent, so nothing
in the store is below itself, and the depth at which a forest is cut off is never reached: a cell
shows its label, its line, its key and everything that its children show. -/

namespace CommentOutline.Outline

/-- Children exist and have longer keys. -/
def Grows (cells : List Cell) : Prop :=
  ∀ (id : Nat) (cell : Cell), cells[id]? = some cell → ∀ child ∈ cell.children,
    ∃ below, cells[child]? = some below ∧ cell.key.length < below.key.length

theorem depthBound_gt (cells : List Cell) (cell : Cell) (member : cell ∈ cells) :
    cell.key.length < depthBound cells := by
  unfold depthBound
  induction cells with
  | nil => cases member
  | cons first rest ih =>
      rw [List.foldr_cons]
      rcases List.mem_cons.mp member with rfl | later
      · omega
      · have bounded := ih later
        omega

theorem grow_succ (cells : List Cell) (depth : Nat) (ids : List Nat) :
    grow cells (depth + 1) ids = ids.filterMap fun id =>
      cells[id]?.map fun cell =>
        ⟨cell.label, cell.line, cell.key, grow cells depth cell.children⟩ := by
  rw [grow]

/-- Growing deeper than the keys can be long adds nothing. -/
private theorem grow_enough (cells : List Cell) (grows : Grows cells) (depth : Nat) :
    ∀ (ids : List Nat),
      (∀ id ∈ ids, ∀ cell, cells[id]? = some cell → depthBound cells ≤ depth + cell.key.length) →
      grow cells (depth + 1) ids = grow cells depth ids := by
  induction depth with
  | zero =>
      intro ids long
      rw [grow_succ, grow, List.filterMap_eq_nil_iff]
      intro id member
      cases present : cells[id]? with
      | none => rfl
      | some cell =>
          -- with no depth left, the key of this cell would be as long as the bound
          have short := depthBound_gt cells cell (List.mem_of_getElem? present)
          have reached := long id member cell present
          omega
  | succ depth ih =>
      intro ids long
      rw [grow_succ, grow_succ]
      apply List.filterMap_congr
      intro id member
      cases present : cells[id]? with
      | none => rfl
      | some cell =>
          have below : grow cells (depth + 1) cell.children = grow cells depth cell.children := by
            apply ih
            intro child inside under found
            obtain ⟨under', found', longer⟩ := grows id cell present child inside
            have same : under = under' := Option.some.inj (found.symm.trans found')
            have reached := long id member cell present
            rw [same]
            omega
          rw [Option.map_some, Option.map_some, below]

namespace Builder

def nodeAt? (builder : Builder) (id : Nat) : Option Node :=
  builder.cells[id]?.map fun cell =>
    ⟨cell.label, cell.line, cell.key, builder.view cell.children⟩

theorem nodeAt?_of_cell (builder : Builder) {id : Nat} {cell : Cell}
    (present : builder.cells[id]? = some cell) :
    builder.nodeAt? id =
      some ⟨cell.label, cell.line, cell.key, builder.view cell.children⟩ := by
  rw [nodeAt?, present, Option.map_some]

theorem view_eq_filterMap (builder : Builder) (grows : Grows builder.cells) (ids : List Nat) :
    builder.view ids = ids.filterMap builder.nodeAt? := by
  have enough : builder.view ids = grow builder.cells (depthBound builder.cells + 1) ids := by
    refine (grow_enough builder.cells grows _ ids ?_).symm
    intro id _ cell _
    exact Nat.le_add_right _ _
  rw [enough, grow_succ]
  rfl

theorem findContainer?_eq_some_iff (builder : Builder) (grows : Grows builder.cells) (key : String)
    (node : Node) :
    builder.findContainer? key = some node ↔
      ∃ id, builder.containers.lookup key = some id ∧ builder.nodeAt? id = some node := by
  rw [findContainer?, Option.bind_eq_some_iff]
  apply exists_congr
  intro id
  rw [view_eq_filterMap builder grows, List.filterMap_cons, List.filterMap_nil]
  cases builder.nodeAt? id <;> rfl

end Builder

/-! ### Changes that keep keys growing -/

theorem getElem?_concat_of_some {cells : List Cell} {id : Nat} {cell : Cell}
    (present : cells[id]? = some cell) (fresh : Cell) : (cells ++ [fresh])[id]? = some cell := by
  have bound : id < cells.length := (List.getElem?_eq_some_iff.mp present).1
  rw [List.getElem?_append_left bound, present]

theorem Grows.nil : Grows [] := by
  intro id cell present
  cases present

theorem Grows.concat {cells : List Cell} (grows : Grows cells) (label : String) (line : Int)
    (key : String) : Grows (cells ++ [⟨label, line, key, []⟩]) := by
  intro id cell present child inside
  by_cases bound : id < cells.length
  · rw [List.getElem?_append_left bound] at present
    obtain ⟨below, found, longer⟩ := grows id cell present child inside
    exact ⟨below, getElem?_concat_of_some found _, longer⟩
  · rw [List.getElem?_append_right (Nat.le_of_not_lt bound)] at present
    have fresh : cell = ⟨label, line, key, []⟩ :=
      List.mem_singleton.mp (List.mem_of_getElem? present)
    rw [fresh] at inside
    cases inside

def Cell.withChild (cell : Cell) (child : Nat) : Cell :=
  { cell with children := cell.children ++ [child] }

theorem getElem?_withChild_self {cells : List Cell} {id : Nat} {cell : Cell}
    (present : cells[id]? = some cell) (child : Nat) :
    (cells.modify id (Cell.withChild · child))[id]? = some (cell.withChild child) := by
  rw [List.getElem?_modify_eq, present]
  rfl

theorem getElem?_withChild_other (cells : List Cell) {above id : Nat} (other : above ≠ id)
    (child : Nat) : (cells.modify above (Cell.withChild · child))[id]? = cells[id]? :=
  List.getElem?_modify_ne _ _ other

theorem exists_key_withChild {cells : List Cell} {id : Nat} {cell : Cell}
    (present : cells[id]? = some cell) (above child : Nat) :
    ∃ after, (cells.modify above (Cell.withChild · child))[id]? = some after ∧
      after.key = cell.key := by
  by_cases same : above = id
  · rw [same]
    exact ⟨_, getElem?_withChild_self present child, rfl⟩
  · exact ⟨cell, (getElem?_withChild_other cells same child).trans present, rfl⟩

theorem Grows.withChild {cells : List Cell} (grows : Grows cells) {above child : Nat}
    {parent under : Cell} (present : cells[above]? = some parent)
    (found : cells[child]? = some under) (longer : parent.key.length < under.key.length) :
    Grows (cells.modify above (Cell.withChild · child)) := by
  intro id cell after item inside
  by_cases same : above = id
  · subst id
    rw [getElem?_withChild_self present child] at after
    cases after
    rcases List.mem_append.mp inside with old | new
    · obtain ⟨below, there, deeper⟩ := grows above parent present item old
      obtain ⟨later, here, sameKey⟩ := exists_key_withChild there above child
      exact ⟨later, here, sameKey ▸ deeper⟩
    · obtain ⟨later, here, sameKey⟩ := exists_key_withChild found above child
      rw [List.mem_singleton.mp new]
      exact ⟨later, here, sameKey ▸ longer⟩
  · rw [getElem?_withChild_other cells same child] at after
    obtain ⟨below, there, deeper⟩ := grows id cell after item inside
    obtain ⟨later, here, sameKey⟩ := exists_key_withChild there above child
    exact ⟨later, here, sameKey ▸ deeper⟩

/-- Induction down the store: what holds of a cell once it holds of its children holds of every
cell. -/
theorem Grows.induction {cells : List Cell} (grows : Grows cells) {motive : Nat → Prop}
    (step : ∀ id, (∀ cell, cells[id]? = some cell → ∀ child ∈ cell.children, motive child) →
      motive id) (id : Nat) : motive id := by
  have deep : ∀ (room id : Nat),
      (∀ cell, cells[id]? = some cell → depthBound cells ≤ room + cell.key.length) →
      motive id := by
    intro room
    induction room with
    | zero =>
        intro id long
        apply step
        intro cell present
        have short := depthBound_gt cells cell (List.mem_of_getElem? present)
        have reached := long cell present
        omega
    | succ room ih =>
        intro id long
        apply step
        intro cell present child inside
        apply ih
        intro under found
        obtain ⟨under', found', longer⟩ := grows id cell present child inside
        have same : under = under' := Option.some.inj (found.symm.trans found')
        have reached := long cell present
        rw [same]
        omega
  exact deep (depthBound cells) id fun cell _ => Nat.le_add_right _ _

end CommentOutline.Outline
