import CommentOutline.Document
import CommentOutline.Proofs.Outline.Ascending

set_option autoImplicit false

/-! Scanning lines and documents. A scan lists the lines that match, in their order, each with its
payload and its number. It goes line by line: whether a line is found, and with which payload,
depends on no other line, and its number only on how many lines stand before it. -/

namespace CommentOutline

theorem itemAt?_natCast {α : Type} (items : List α) (n : Nat) :
    itemAt? items (n : Int) = items[n]? := by
  have place : place? items.length (n : Int) = if n < items.length then some n else none := rfl
  rw [itemAt?, place]
  split
  · rfl
  · rename_i beyond
    exact (List.getElem?_eq_none (Nat.le_of_not_lt beyond)).symm

/-! ### Lines -/

namespace Comment

theorem scanFrom_cons (style : Style) (number : Int) (line : String) (lines : List String) :
    scanFrom style number (line :: lines) =
      ((matchLine? style line).map fun payload => (payload, number)).toList ++
        scanFrom style (number + 1) lines := by
  rw [scanFrom]
  cases matchLine? style line <;> rfl

theorem scanFrom_append (style : Style) (number : Int) (first second : List String) :
    scanFrom style number (first ++ second) =
      scanFrom style number first ++ scanFrom style (number + first.length) second := by
  induction first generalizing number with
  | nil =>
      rw [List.nil_append, scanFrom, List.nil_append, List.length_nil, Int.natCast_zero,
        Int.add_zero]
  | cons line first ih =>
      rw [List.cons_append, scanFrom_cons, scanFrom_cons, ih, List.append_assoc, List.length_cons,
        Int.natCast_succ, Int.add_assoc, Int.add_comm 1]

theorem scanFrom_add (style : Style) (number offset : Int) (lines : List String) :
    scanFrom style (number + offset) lines =
      (scanFrom style number lines).map fun pair => (pair.1, pair.2 + offset) := by
  induction lines generalizing number with
  | nil => rfl
  | cons line lines ih =>
      have later : scanFrom style (number + offset + 1) lines =
          (scanFrom style (number + 1) lines).map fun pair => (pair.1, pair.2 + offset) := by
        rw [← ih, Int.add_right_comm]
      rw [scanFrom_cons, scanFrom_cons, later, List.map_append]
      cases matchLine? style line <;> rfl

theorem scanFrom_eq_map_scanLines (style : Style) (number : Int) (lines : List String) :
    scanFrom style number lines =
      (scanLines style lines).map fun pair => (pair.1, pair.2 + number) := by
  rw [scanLines, ← scanFrom_add, Int.zero_add]

theorem scanLines_cons (style : Style) (line : String) (lines : List String) :
    scanLines style (line :: lines) =
      ((matchLine? style line).map fun payload => (payload, (0 : Int))).toList ++
        (scanLines style lines).map fun pair => (pair.1, pair.2 + 1) := by
  rw [scanLines, scanFrom_cons, Int.zero_add, scanFrom_eq_map_scanLines]

theorem scanLines_append (style : Style) (first second : List String) :
    scanLines style (first ++ second) =
      scanLines style first ++
        (scanLines style second).map fun pair => (pair.1, pair.2 + (first.length : Int)) := by
  rw [scanLines, scanFrom_append, Int.zero_add, scanFrom_eq_map_scanLines style first.length]
  rfl

theorem scanFrom_eq_filterMap_range (style : Style) (start : Int) (lines : List String) :
    scanFrom style start lines =
      (List.range lines.length).filterMap fun (number : Nat) =>
        lines[number]?.bind fun line =>
          (matchLine? style line).map fun payload => (payload, start + number) := by
  -- the start moves on with every line that is taken off, so that both sides keep their numbers
  induction lines generalizing start with
  | nil => rfl
  | cons line lines ih =>
      have shifted : scanFrom style (start + 1) lines =
          (List.range lines.length).filterMap ((fun (number : Nat) =>
            (line :: lines)[number]?.bind fun line =>
              (matchLine? style line).map fun payload => (payload, start + number)) ∘ Nat.succ) := by
        rw [ih (start + 1)]
        congr 1
        funext number
        rw [Function.comp_apply, List.getElem?_cons_succ, Int.natCast_succ, Int.add_assoc,
          Int.add_comm 1]
      rw [List.length_cons, List.range_succ_eq_map, List.filterMap_cons, List.filterMap_map,
        ← shifted, scanFrom_cons, List.getElem?_cons_zero, Option.bind_some, Int.natCast_zero,
        Int.add_zero]
      cases matchLine? style line <;> rfl

end Comment

/-! ### Documents -/

namespace Document

open Comment (Style matchLine? scanLines)

/-- Every number below the count has its line, so that no look-up of a scan fails. -/
theorem map_lineAt?_range (document : Document) :
    (List.range document.lineCount).map (fun (number : Nat) => document.lineAt? number) =
      document.lines.map some := by
  refine List.ext_getElem ?_ fun n _ inside => ?_
  · rw [List.length_map, List.length_range, List.length_map, lineCount]
  · rw [List.length_map] at inside
    rw [List.getElem_map, List.getElem_map, List.getElem_range, lineAt?, itemAt?_natCast,
      List.getElem?_eq_getElem inside]

theorem scan_eq_scanLines (document : Document) (style : Style) :
    document.scan style = scanLines style document.lines := by
  rw [scanLines, Comment.scanFrom_eq_filterMap_range, scan, lineCount]
  congr 1
  funext number
  rw [lineAt?, itemAt?_natCast, Int.zero_add]

/-- A line of the document that matches, with its payload. -/
def Matches (document : Document) (style : Style) (number : Int) (payload : String) : Prop :=
  0 ≤ number ∧
    ∃ line, document.lineAt? number = some line ∧ matchLine? style line = some payload

theorem Matches.lt_lineCount {document : Document} {style : Style} {number : Int}
    {payload : String} (found : document.Matches style number payload) :
    number < document.lineCount := by
  obtain ⟨nonneg, line, present, -⟩ := found
  obtain ⟨n, rfl⟩ := Int.eq_ofNat_of_zero_le nonneg
  rw [lineAt?, itemAt?_natCast] at present
  obtain ⟨inside, -⟩ := List.getElem?_eq_some_iff.mp present
  exact Int.ofNat_lt.mpr inside

theorem mem_scan_iff (document : Document) (style : Style) (payload : String) (number : Int) :
    (payload, number) ∈ document.scan style ↔ document.Matches style number payload := by
  constructor
  · intro member
    obtain ⟨n, -, found⟩ := List.mem_filterMap.mp member
    obtain ⟨line, present, found⟩ := Option.bind_eq_some_iff.mp found
    obtain ⟨text, read, same⟩ := Option.map_eq_some_iff.mp found
    cases same
    exact ⟨Int.natCast_nonneg n, line, present, read⟩
  · intro found
    have inside := found.lt_lineCount
    obtain ⟨nonneg, line, present, read⟩ := found
    obtain ⟨n, rfl⟩ := Int.eq_ofNat_of_zero_le nonneg
    refine List.mem_filterMap.mpr ⟨n, List.mem_range.mpr (Int.ofNat_lt.mp inside), ?_⟩
    rw [present, Option.bind_some, read, Option.map_some]

theorem scan_ascending (document : Document) (style : Style) :
    Outline.Ascending (document.scan style) := by
  have number_of : ∀ (n : Nat) (pair : String × Int),
      ((document.lineAt? n).bind fun line =>
        (matchLine? style line).map fun payload => (payload, (n : Int))) = some pair →
      pair.2 = n := by
    intro n pair found
    obtain ⟨line, -, found⟩ := Option.bind_eq_some_iff.mp found
    obtain ⟨text, -, rfl⟩ := Option.map_eq_some_iff.mp found
    rfl
  rw [Outline.Ascending, scan, List.pairwise_filterMap]
  refine List.pairwise_lt_range.imp ?_
  intro n m lower first found second found'
  rw [number_of n first found, number_of m second found']
  exact Int.ofNat_lt.mpr lower

end Document

/-! ### Line by line -/

namespace Comment

variable (style : Style) (lines : List String)

theorem scanLines_ascending : Outline.Ascending (scanLines style lines) :=
  (Document.ofLines lines).scan_eq_scanLines style ▸ (Document.ofLines lines).scan_ascending style

theorem mem_scanLines_iff (payload : String) (number : Int) :
    (payload, number) ∈ scanLines style lines ↔
      0 ≤ number ∧ ∃ inside : number.toNat < lines.length,
        matchLine? style lines[number.toNat] = some payload := by
  have scanned : scanLines style lines = (Document.ofLines lines).scan style :=
    ((Document.ofLines lines).scan_eq_scanLines style).symm
  rw [scanned, Document.mem_scan_iff, Document.Matches]
  refine and_congr_right fun nonneg => ?_
  obtain ⟨n, rfl⟩ := Int.eq_ofNat_of_zero_le nonneg
  rw [Document.lineAt?, itemAt?_natCast]
  constructor
  · rintro ⟨line, present, read⟩
    obtain ⟨inside, rfl⟩ := List.getElem?_eq_some_iff.mp present
    exact ⟨inside, read⟩
  · rintro ⟨inside, read⟩
    exact ⟨lines[n], List.getElem?_eq_getElem inside, read⟩

end Comment

open Comment (Style matchLine? scanLines)

/-- Under every style lines are scanned one by one: those of a second list are found as they would
be alone, on numbers that go on behind the first list. A document looks up every one of its lines
and is scanned as they are. What a scan lists is in the order of the lines, and it is a payload with
its number exactly when the line with that number matches with that payload. -/
theorem scans_line_by_line (style : Style) :
    (∀ first second : List String,
      scanLines style (first ++ second) =
        scanLines style first ++
          (scanLines style second).map fun pair => (pair.1, pair.2 + (first.length : Int))) ∧
    (∀ document : Document,
      (List.range document.lineCount).map (fun (number : Nat) => document.lineAt? number) =
        document.lines.map some ∧
      document.scan style = scanLines style document.lines) ∧
    ∀ lines : List String,
      Outline.Ascending (scanLines style lines) ∧
      ∀ (payload : String) (number : Int),
        (payload, number) ∈ scanLines style lines ↔
          0 ≤ number ∧ ∃ inside : number.toNat < lines.length,
            matchLine? style lines[number.toNat] = some payload := by
  refine ⟨Comment.scanLines_append style, fun document => ?_, fun lines => ?_⟩
  · exact ⟨document.map_lineAt?_range, document.scan_eq_scanLines style⟩
  · exact ⟨Comment.scanLines_ascending style lines, Comment.mem_scanLines_iff style lines⟩

/-- The lines between two annotations count as well. -/
example : scanLines .standard ["x", "// #-- one", "y", "// #-- two"] =
    [("one", 1), ("two", 3)] := by
  decide +kernel

end CommentOutline
