import CommentOutline.Outline.Builder

set_option autoImplicit false

/-! Where labels and lines come from. Cells are made from the labels and lines of annotations or
from segments of such labels, and once they are made they get new children only. So what holds of
annotations and of their segments holds of every node that a builder ever shows. -/

namespace CommentOutline.Outline.Builder

variable {fits : String → Int → Prop} {builder next : Builder}

def Within (fits : String → Int → Prop) (builder : Builder) : Prop :=
  ∀ cell ∈ builder.cells, fits cell.label cell.line

theorem within_start (fits : String → Int → Prop) (separator : Separator) :
    (start separator).Within fits :=
  List.forall_mem_nil _

theorem Within.newCell (within : builder.Within fits) {label : String} {line : Int}
    (fit : fits label line) (key : String) : (builder.newCell label line key).2.Within fits :=
  List.forall_mem_append.mpr ⟨within, List.forall_mem_singleton.mpr fit⟩

theorem Within.append (within : builder.Within fits) (parent child : Nat) :
    (builder.append parent child).Within fits := by
  intro cell inside
  obtain ⟨id, present⟩ := List.getElem?_of_mem inside
  rw [Builder.append, List.getElem?_modify, Option.map_eq_map, Option.map_eq_some_iff] at present
  obtain ⟨old, there, rfl⟩ := present
  have fit := within old (List.mem_of_getElem? there)
  split <;> exact fit

theorem Within.offer (within : builder.Within fits) (parent child : Nat) (key : String) :
    (builder.offer parent child key).Within fits := by
  unfold Builder.offer
  split
  · exact within
  · exact within.append parent child

theorem Within.container (within : builder.Within fits) {label : String} {line : Int}
    (fit : fits label line) (key : String) : (builder.container label line key).2.Within fits := by
  unfold Builder.container
  split
  · exact within
  · exact within.newCell fit key

theorem Within.topContainer (within : builder.Within fits) {label : String} {line : Int}
    (fit : fits label line) : (builder.topContainer label line).Within fits := by
  unfold Builder.topContainer
  split
  · exact within
  · exact within.newCell fit label

theorem Within.addBelow (within : builder.Within fits) {line : Int} {parent : String}
    {labels : List String} (fit : ∀ label ∈ labels, fits label line)
    (done : addBelow line parent labels builder = .ok next) : next.Within fits := by
  induction labels generalizing builder parent with
  | nil =>
      rw [Builder.addBelow, Except.ok.injEq] at done
      rw [← done]
      exact within
  | cons label rest ih =>
      rw [List.forall_mem_cons] at fit
      cases rest with
      | nil =>
          simp only [Builder.addBelow] at done
          split at done
          · rw [Except.ok.injEq] at done
            rw [← done]
            exact (within.newCell fit.1 _).append _ _
          · cases done
      | cons second rest =>
          simp only [Builder.addBelow] at done
          split at done
          · exact ih ((within.container fit.1 _).offer _ _ _) fit.2 done
          · cases done

theorem Within.addPath (within : builder.Within fits) {segments : List String} {line : Int}
    (fit : ∀ label ∈ segments, fits label line) (done : builder.addPath segments line = .ok next) :
    next.Within fits := by
  cases segments with
  | nil => cases done
  | cons top rest =>
      rw [List.forall_mem_cons] at fit
      exact (within.topContainer fit.1).addBelow fit.2 done

def ClosedUnderSegments (fits : String → Int → Prop) : Prop :=
  ∀ label line, fits label line → ∀ separator, ∀ segment ∈ segments separator label,
    fits segment line

theorem Within.add (within : builder.Within fits) (closed : ClosedUnderSegments fits)
    {label : String} {line : Int} (fit : fits label line)
    (done : builder.add label line = .ok next) : next.Within fits := by
  unfold Builder.add at done
  split at done
  · cases done
  · cases done
  · rename_i separator _ _
    split at done
    · exact within.addPath (closed label line fit separator) done
    · rw [Except.ok.injEq] at done
      rw [← done]
      exact within.newCell fit label

theorem Within.addAll (within : builder.Within fits) (closed : ClosedUnderSegments fits)
    {pairs : List (String × Int)} (fit : ∀ pair ∈ pairs, fits pair.1 pair.2) :
    (builder.addAll pairs).1.Within fits := by
  induction pairs generalizing builder with
  | nil => exact within
  | cons pair pairs ih =>
      rw [List.forall_mem_cons] at fit
      rw [Builder.addAll]
      split
      · rename_i next done
        exact ih (within.add closed fit.1 done) fit.2
      · exact within

/-- A build keeps what earlier builds made, and what it makes itself fits, even if it fails. -/
theorem Within.build (within : builder.Within fits) (closed : ClosedUnderSegments fits)
    {pairs : List (String × Int)} (fit : ∀ pair ∈ pairs, fits pair.1 pair.2) :
    (builder.build pairs).1.Within fits := by
  have kept : builder.reset.Within fits := within
  exact kept.addAll closed fit

theorem fits_of_mem_grow {cells : List Cell} (within : ∀ cell ∈ cells, fits cell.label cell.line)
    (depth : Nat) (ids : List Nat) :
    ∀ brief ∈ walkAll (grow cells depth ids), fits brief.label brief.line := by
  induction depth generalizing ids with
  | zero => exact List.forall_mem_nil _
  | succ depth ih =>
      rw [grow]
      induction ids with
      | nil => exact List.forall_mem_nil _
      | cons id ids later =>
          rw [List.filterMap_cons]
          cases present : cells[id]? with
          | none => exact later
          | some cell =>
              rw [Option.map_some, walkAll, walk, List.forall_mem_append, List.forall_mem_cons]
              exact ⟨⟨within cell (List.mem_of_getElem? present), ih cell.children⟩, later⟩

theorem Within.view (within : builder.Within fits) (ids : List Nat) :
    ∀ brief ∈ walkAll (builder.view ids), fits brief.label brief.line :=
  fits_of_mem_grow within _ ids

end CommentOutline.Outline.Builder
