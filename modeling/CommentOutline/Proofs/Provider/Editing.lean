import Mathlib.Order.Monotone.Basic
import CommentOutline.Proofs.Outline.Renumbering
import CommentOutline.Proofs.Provider.Provenance

set_option autoImplicit false

/-! A document under an edit that puts lines between its lines. The lines that were there keep
their order and get higher numbers; if no new line is an annotation, the scan finds the same
payloads on the new numbers, and the outline is the old one with the numbers exchanged. -/

namespace CommentOutline

open Comment (Settings Style matchLine? scanLines check_ofTexts_eq_ok_iff)
open Outline

/-- A line of a document after an edit: one that was there, or one that the edit has put in. -/
structure EditedLine where
  text : String
  inserted : Bool
deriving Repr, DecidableEq

namespace EditedLine

def kept (edit : List EditedLine) : List EditedLine := edit.filter fun line => !line.inserted

def linesBefore (edit : List EditedLine) : List String := (kept edit).map text

def linesAfter (edit : List EditedLine) : List String := edit.map text

/-- The number that a line has after the edit, from the number that it had before. -/
def numberAfter : List EditedLine → Nat → Nat
  | [], number => number
  | ⟨_, true⟩ :: edit, number => numberAfter edit number + 1
  | ⟨_, false⟩ :: _, 0 => 0
  | ⟨_, false⟩ :: edit, number + 1 => numberAfter edit number + 1

theorem exists_edit {before after : List String} (sublist : before.Sublist after) :
    ∃ edit, linesBefore edit = before ∧ linesAfter edit = after := by
  induction sublist with
  | slnil => exact ⟨[], rfl, rfl⟩
  | cons text _ ih =>
      obtain ⟨edit, rfl, rfl⟩ := ih
      exact ⟨⟨text, true⟩ :: edit, rfl, rfl⟩
  | cons_cons text _ ih =>
      obtain ⟨edit, rfl, rfl⟩ := ih
      exact ⟨⟨text, false⟩ :: edit, rfl, rfl⟩

theorem getElem?_numberAfter (edit : List EditedLine) (number : Nat)
    (inside : number < (kept edit).length) :
    edit[numberAfter edit number]? = (kept edit)[number]? := by
  induction edit generalizing number with
  | nil => exact absurd inside (Nat.not_lt_zero _)
  | cons line edit ih =>
      match line, number with
      | ⟨text, true⟩, number =>
          rw [numberAfter, List.getElem?_cons_succ]
          exact ih number inside
      | ⟨text, false⟩, 0 => rfl
      | ⟨text, false⟩, number + 1 =>
          rw [numberAfter, List.getElem?_cons_succ]
          exact ih number (Nat.lt_of_succ_lt_succ inside)

theorem numberAfter_strictMono (edit : List EditedLine) : StrictMono (numberAfter edit) := by
  induction edit with
  | nil => exact strictMono_id
  | cons line edit ih =>
      match line with
      | ⟨text, true⟩ => exact fun _ _ lower => Nat.succ_lt_succ (ih lower)
      | ⟨text, false⟩ =>
          intro low high lower
          match low, high with
          | 0, high + 1 => exact Nat.succ_pos _
          | low + 1, high + 1 => exact Nat.succ_lt_succ (ih (Nat.lt_of_succ_lt_succ lower))

/-- The lines that an edit puts in are no annotations. -/
def Unannotated (style : Style) (edit : List EditedLine) : Prop :=
  ∀ line ∈ edit, line.inserted = true → matchLine? style line.text = none

end EditedLine

open EditedLine

/-! ### The scan under an edit -/

namespace Comment

theorem scanLines_linesAfter {style : Style} (edit : List EditedLine)
    (rejected : Unannotated style edit) :
    scanLines style (linesAfter edit) =
      (scanLines style (linesBefore edit)).map fun pair =>
        (pair.1, (numberAfter edit pair.2.toNat : Int)) := by
  induction edit with
  | nil => rfl
  | cons line edit ih =>
      have rejectedRest : Unannotated style edit := fun other member =>
        rejected other (List.mem_cons_of_mem _ member)
      match line with
      | ⟨text, true⟩ =>
          have skipped : matchLine? style text = none :=
            rejected ⟨text, true⟩ List.mem_cons_self rfl
          have before : linesBefore (⟨text, true⟩ :: edit) = linesBefore edit := rfl
          have after : linesAfter (⟨text, true⟩ :: edit) = text :: linesAfter edit := rfl
          rw [before, after, scanLines_cons, skipped, ih rejectedRest, List.map_map]
          rfl
      | ⟨text, false⟩ =>
          have before : linesBefore (⟨text, false⟩ :: edit) = text :: linesBefore edit := rfl
          have after : linesAfter (⟨text, false⟩ :: edit) = text :: linesAfter edit := rfl
          -- behind a line that stays, the numbers before and after the edit both go up by one
          rw [before, after, scanLines_cons, scanLines_cons, ih rejectedRest, List.map_append,
            List.map_map, List.map_map]
          refine congrArg₂ _ (by cases matchLine? style text <;> rfl) (List.map_congr_left ?_)
          intro pair member
          obtain ⟨nonneg, -⟩ := (mem_scanLines_iff style _ pair.1 pair.2).mp member
          have next : (pair.2 + 1).toNat = pair.2.toNat + 1 := Int.toNat_add nonneg Int.one_nonneg
          rw [Function.comp_apply, Function.comp_apply, next, numberAfter, Int.natCast_succ]

end Comment

namespace Document

theorem scan_linesAfter {style : Style} {edit : List EditedLine}
    (rejected : Unannotated style edit) :
    (ofLines (linesAfter edit)).scan style =
      ((ofLines (linesBefore edit)).scan style).map fun pair =>
        (pair.1, (numberAfter edit pair.2.toNat : Int)) := by
  rw [scan_eq_scanLines, scan_eq_scanLines]
  exact Comment.scanLines_linesAfter edit rejected

end Document

/-! ### The outline under an edit -/

/-- Lines that are no annotations change only the line numbers of an outline, wherever they are put
in: every number becomes that of the same line after the edit. As for annotations on any lines, the
outline of the same annotations on other lines is the old one with the lines exchanged. -/
theorem create_linesAfter_renumbers (openers : List String) (marker closer : String)
    (hasNavigator : Bool) (style : Style)
    (accepted : (Settings.ofTexts openers marker "::" closer).check = .ok style)
    (edit : List EditedLine) (rejected : Unannotated style edit) :
    (∃ before after : Provider String,
      Provider.create (.ofLines (linesBefore edit)) (.ofTexts openers marker "::" closer)
        hasNavigator = .ok before ∧
      Provider.create (.ofLines (linesAfter edit)) (.ofTexts openers marker "::" closer)
        hasNavigator = .ok after ∧
      after.roots = renumber (fun line => numberAfter edit line.toNat) before.roots) ∧
    (∀ number < (kept edit).length, edit[numberAfter edit number]? = (kept edit)[number]?) ∧
    StrictMono (numberAfter edit) ∧
    ∀ (pairs : List (String × Int)) (f : Int → Int),
      ∃ forest, buildForest (.token "::") pairs = .ok forest ∧
        buildForest (.token "::") (pairs.map fun pair => (pair.1, f pair.2)) =
          .ok (renumber f forest) := by
  have standard : style.separator = .token "::" := by
    obtain ⟨-, rfl⟩ := (check_ofTexts_eq_ok_iff openers marker "::" closer style).mp accepted
    rfl
  obtain ⟨before, created, roots, -⟩ :=
    @Provider.exists_create String (.ofLines (linesBefore edit)) _ _ accepted standard hasNavigator
  obtain ⟨after, createdAfter, rootsAfter, -⟩ :=
    @Provider.exists_create String (.ofLines (linesAfter edit)) _ _ accepted standard hasNavigator
  refine ⟨⟨before, after, created, createdAfter, ?_⟩, fun number => getElem?_numberAfter edit number,
    numberAfter_strictMono edit, fun pairs f => buildForest_onLine f pairs⟩
  rw [rootsAfter, roots, Document.scan_linesAfter rejected]
  exact grouping_onLine (fun line => numberAfter edit line.toNat) _

/-- A line before all others, and a blank one between two. -/
theorem create_linesAfter_renumbers_blank :
    ∃ edit : List EditedLine,
      linesBefore edit = ["// #-- P::x", "plain", "// #-- y"] ∧
      linesAfter edit = ["// #--", "// #-- P::x", "", "plain", "// #-- y"] ∧
      (Settings.ofTexts ["//", "/*"] "#--" "::" "*/").check = .ok .standard ∧
      Unannotated .standard edit ∧
      numberAfter edit 0 = 1 ∧ numberAfter edit 2 = 4 ∧
      ∃ before after : Provider String,
        Provider.create (.ofLines ["// #-- P::x", "plain", "// #-- y"])
          (.ofTexts ["//", "/*"] "#--" "::" "*/") true = .ok before ∧
        Provider.create (.ofLines ["// #--", "// #-- P::x", "", "plain", "// #-- y"])
          (.ofTexts ["//", "/*"] "#--" "::" "*/") true = .ok after ∧
        after.roots = renumber (fun line => numberAfter edit line.toNat) before.roots := by
  have rejected : Unannotated .standard [⟨"// #--", true⟩, ⟨"// #-- P::x", false⟩, ⟨"", true⟩,
      ⟨"plain", false⟩, ⟨"// #-- y", false⟩] := by
    unfold Unannotated
    decide
  refine ⟨_, rfl, rfl, by rfl, rejected, rfl, rfl, ?_⟩
  exact (create_linesAfter_renumbers ["//", "/*"] "#--" "*/" true .standard (by rfl) _ rejected).1

end CommentOutline
