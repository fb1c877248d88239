import Mathlib.Data.List.Chain
import CommentOutline.Text.Lines

set_option autoImplicit false

/-! Texts laid out in lines. A line is written with one of three ends, and behind the last end there
may be one more line without any. A carriage return and a line feed are one end and not two, so an
empty line that a line feed ends cannot stand behind a carriage return. Every text has such a
layout, and the lines of the layout are those that the text is split into. -/

namespace CommentOutline.Text

inductive LineEnd where
  | feed
  | carriage
  | both
deriving Repr, DecidableEq

def LineEnd.chars : LineEnd → List Char
  | .feed => ['\n']
  | .carriage => ['\r']
  | .both => ['\r', '\n']

def OneLine (cs : List Char) : Prop := '\r' ∉ cs ∧ '\n' ∉ cs

instance (cs : List Char) : Decidable (OneLine cs) :=
  inferInstanceAs (Decidable ('\r' ∉ cs ∧ '\n' ∉ cs))

theorem oneLine_cons (c : Char) (cs : List Char) :
    OneLine (c :: cs) ↔ (c ≠ '\r' ∧ c ≠ '\n') ∧ OneLine cs := by
  unfold OneLine
  rw [List.mem_cons, List.mem_cons, not_or, not_or, and_and_and_comm, ne_comm, ne_comm (a := c)]

structure EndedLine where
  text : String
  ending : LineEnd
deriving Repr, DecidableEq

def EndedLine.chars (line : EndedLine) : List Char := line.text.toList ++ line.ending.chars

/-- Lines with their ends, and what stands behind the last end. -/
structure Layout where
  ended : List EndedLine
  rest : String
deriving Repr, DecidableEq

namespace Layout

def chars (layout : Layout) : List Char :=
  layout.ended.flatMap EndedLine.chars ++ layout.rest.toList

def text (layout : Layout) : String := String.ofList layout.chars

/-- The lines without their ends. What stands behind the last end counts if it is not empty. -/
def lines (layout : Layout) : List String :=
  layout.ended.map EndedLine.text ++ if layout.rest = "" then [] else [layout.rest]

/-- No line holds a line end, and no two ends would be read as one. -/
structure Clear (layout : Layout) : Prop where
  ended : ∀ line ∈ layout.ended, OneLine line.text.toList
  rest : OneLine layout.rest.toList
  apart : layout.ended.IsChain fun first second =>
    ¬ (first.ending = .carriage ∧ second = ⟨"", .feed⟩)

end Layout

/-! ### Splitting -/

theorem lineChars_cons {c : Char} (return_free : c ≠ '\r') (feed_free : c ≠ '\n')
    (cs : List Char) : lineChars (c :: cs) = extendFirst c (lineChars cs) := by
  rw [lineChars]
  · simp [return_free, feed_free]
  · rintro _ rfl
    exact absurd rfl return_free

theorem lineChars_carriage {cs : List Char} (alone : cs.head? ≠ some '\n') :
    lineChars ('\r' :: cs) = [] :: lineChars cs := by
  rw [lineChars]
  · rfl
  · rintro more - rfl
    exact alone rfl

theorem lineChars_end {ending : LineEnd} {rest : List Char}
    (alone : ending = .carriage → rest.head? ≠ some '\n') :
    lineChars (ending.chars ++ rest) = [] :: lineChars rest := by
  cases ending with
  | feed => rfl
  | carriage => exact lineChars_carriage (alone rfl)
  | both => rfl

theorem lineChars_ended {cs : List Char} (oneLine : OneLine cs) {ending : LineEnd}
    {rest : List Char} (alone : ending = .carriage → rest.head? ≠ some '\n') :
    lineChars (cs ++ (ending.chars ++ rest)) = cs :: lineChars rest := by
  induction cs with
  | nil => exact lineChars_end alone
  | cons c cs ih =>
      rw [oneLine_cons] at oneLine
      rw [List.cons_append, lineChars_cons oneLine.1.1 oneLine.1.2, ih oneLine.2, extendFirst]

theorem lineChars_oneLine {cs : List Char} (oneLine : OneLine cs) (begun : cs ≠ []) :
    lineChars cs = [cs] := by
  induction cs with
  | nil => exact absurd rfl begun
  | cons c cs ih =>
      rw [oneLine_cons] at oneLine
      rw [lineChars_cons oneLine.1.1 oneLine.1.2]
      cases cs with
      | nil => rfl
      | cons next cs => rw [ih oneLine.2 (List.cons_ne_nil _ _), extendFirst]

theorem head?_chars_ne_feed {line : EndedLine} (oneLine : OneLine line.text.toList)
    (other : line ≠ ⟨"", .feed⟩) (rest : List Char) :
    (line.chars ++ rest).head? ≠ some '\n' := by
  obtain ⟨text, ending⟩ := line
  unfold EndedLine.chars
  cases first : text.toList with
  | nil =>
      rw [String.toList_eq_nil_iff] at first
      cases ending with
      | feed => exact absurd (by rw [first]) other
      | carriage => exact fun feed => by cases feed
      | both => exact fun feed => by cases feed
  | cons c cs =>
      rw [first, oneLine_cons] at oneLine
      intro feed
      exact oneLine.1.2 (Option.some.inj feed)

namespace Layout

variable {line : EndedLine} {ended : List EndedLine} {rest : String}

theorem chars_cons : chars ⟨line :: ended, rest⟩ =
    line.text.toList ++ (line.ending.chars ++ chars ⟨ended, rest⟩) := by
  unfold chars EndedLine.chars
  rw [List.flatMap_cons, List.append_assoc, List.append_assoc]

theorem clear_cons_iff :
    Clear ⟨line :: ended, rest⟩ ↔ OneLine line.text.toList ∧
      (line.ending = .carriage → ended.head? ≠ some ⟨"", .feed⟩) ∧ Clear ⟨ended, rest⟩ := by
  constructor
  · intro clear
    obtain ⟨oneLine, others⟩ := List.forall_mem_cons.mp clear.ended
    obtain ⟨apart, later⟩ := List.isChain_cons.mp clear.apart
    exact ⟨oneLine, fun carriage feed => apart _ feed ⟨carriage, rfl⟩, others, clear.rest, later⟩
  · rintro ⟨oneLine, alone, clear⟩
    refine ⟨List.forall_mem_cons.mpr ⟨oneLine, clear.ended⟩, clear.rest,
      List.isChain_cons.mpr ⟨?_, clear.apart⟩⟩
    rintro next feed ⟨carriage, rfl⟩
    exact alone carriage feed

/-- The first character behind a line end is a line feed only if an empty line is ended by it. -/
theorem Clear.head?_chars {layout : Layout} (clear : layout.Clear)
    (other : layout.ended.head? ≠ some ⟨"", .feed⟩) : layout.chars.head? ≠ some '\n' := by
  obtain ⟨ended, rest⟩ := layout
  cases ended with
  | nil =>
      intro feed
      exact clear.rest.2 (List.mem_of_mem_head? feed)
  | cons line ended =>
      rw [clear_cons_iff] at clear
      unfold chars
      rw [List.flatMap_cons, List.append_assoc]
      exact head?_chars_ne_feed clear.1 (fun feed => other (by rw [feed]; rfl)) _

theorem Clear.splitLines_text {layout : Layout} (clear : layout.Clear) :
    splitLines layout.text = layout.lines := by
  unfold splitLines text
  rw [String.toList_ofList]
  obtain ⟨ended, rest⟩ := layout
  induction ended with
  | nil =>
      unfold chars lines
      rw [List.flatMap_nil, List.nil_append, List.map_nil, List.nil_append]
      split
      · rename_i none
        rw [none]
        rfl
      · rename_i begun
        rw [lineChars_oneLine clear.rest fun none => begun (String.toList_eq_nil_iff.mp none),
          List.map_singleton, String.ofList_toList]
  | cons line ended ih =>
      obtain ⟨oneLine, alone, later⟩ := clear_cons_iff.mp clear
      rw [chars_cons, lineChars_ended oneLine fun carriage => later.head?_chars (alone carriage),
        List.map_cons, ih later, String.ofList_toList]
      rfl

/-! ### Laying out -/

/-- The layout with one more character in front of its first line. -/
def extend (c : Char) : Layout → Layout
  | ⟨[], rest⟩ => ⟨[], String.singleton c ++ rest⟩
  | ⟨line :: ended, rest⟩ => ⟨⟨String.singleton c ++ line.text, line.ending⟩ :: ended, rest⟩

theorem chars_extend (c : Char) (layout : Layout) : (layout.extend c).chars = c :: layout.chars := by
  obtain ⟨ended, rest⟩ := layout
  cases ended with
  | nil =>
      unfold extend chars
      rw [String.toList_append, String.toList_singleton]
      rfl
  | cons line ended =>
      unfold extend chars EndedLine.chars
      rw [List.flatMap_cons, List.flatMap_cons, String.toList_append, String.toList_singleton]
      rfl

theorem Clear.extend {layout : Layout} (clear : layout.Clear) {c : Char} (return_free : c ≠ '\r')
    (feed_free : c ≠ '\n') : (layout.extend c).Clear := by
  obtain ⟨ended, rest⟩ := layout
  have longer : ∀ text : String, OneLine text.toList → OneLine (String.singleton c ++ text).toList := by
    intro text oneLine
    rw [String.toList_append, String.toList_singleton, List.singleton_append, oneLine_cons]
    exact ⟨⟨return_free, feed_free⟩, oneLine⟩
  cases ended with
  | nil => exact ⟨List.forall_mem_nil _, longer rest clear.rest, .nil⟩
  | cons line ended =>
      obtain ⟨oneLine, alone, later⟩ := clear_cons_iff.mp clear
      exact clear_cons_iff.mpr ⟨longer line.text oneLine, alone, later⟩

theorem Clear.begin {layout : Layout} (clear : layout.Clear) (ending : LineEnd)
    (alone : ending = .carriage → layout.ended.head? ≠ some ⟨"", .feed⟩) :
    Clear ⟨⟨"", ending⟩ :: layout.ended, layout.rest⟩ :=
  clear_cons_iff.mpr ⟨⟨List.not_mem_nil, List.not_mem_nil⟩, alone, clear⟩

theorem exists_clear (cs : List Char) : ∃ layout : Layout, layout.Clear ∧ layout.chars = cs := by
  induction cs using lineChars.induct with
  | case1 => exact ⟨⟨[], ""⟩, ⟨List.forall_mem_nil _, by decide, .nil⟩, rfl⟩
  | case2 cs ih =>
      obtain ⟨layout, clear, rfl⟩ := ih
      exact ⟨_, clear.begin .both (fun other => nomatch other), chars_cons⟩
  | case3 c cs apart ends ih =>
      obtain ⟨layout, clear, rfl⟩ := ih
      rw [Bool.or_eq_true, decide_eq_true_eq, decide_eq_true_eq] at ends
      rcases ends with rfl | rfl
      · -- an empty line that a line feed ends would have made one end of two
        have alone : layout.ended.head? ≠ some ⟨"", .feed⟩ := by
          intro feed
          obtain ⟨ended, begun⟩ := List.head?_eq_some_iff.mp feed
          obtain ⟨_, rest⟩ := layout
          obtain rfl := begun
          exact apart _ rfl chars_cons
        exact ⟨_, clear.begin .carriage (fun _ => alone), chars_cons⟩
      · exact ⟨_, clear.begin .feed (fun other => nomatch other), chars_cons⟩
  | case4 c cs apart plain ih =>
      obtain ⟨layout, clear, rfl⟩ := ih
      rw [Bool.or_eq_true, decide_eq_true_eq, decide_eq_true_eq, not_or] at plain
      exact ⟨layout.extend c, clear.extend plain.1 plain.2, chars_extend c layout⟩

/-! ### What a split loses -/

def endsLine (c : Char) : Bool := c = '\r' || c = '\n'

theorem filter_oneLine {cs : List Char} (oneLine : OneLine cs) :
    cs.filter (fun c => !endsLine c) = cs := by
  apply List.filter_eq_self.mpr
  intro c member
  unfold endsLine
  rw [Bool.not_eq_true', Bool.or_eq_false_iff, decide_eq_false_iff_not, decide_eq_false_iff_not]
  exact ⟨fun same => oneLine.1 (same ▸ member), fun same => oneLine.2 (same ▸ member)⟩

theorem filter_lineEnd (ending : LineEnd) :
    ending.chars.filter (fun c => !endsLine c) = [] := by
  cases ending <;> rfl

theorem mem_lines_iff {layout : Layout} {line : String} :
    line ∈ layout.lines ↔
      (∃ ended ∈ layout.ended, ended.text = line) ∨ layout.rest ≠ "" ∧ line = layout.rest := by
  unfold lines
  rw [List.mem_append, List.mem_map]
  split
  · rename_i none
    simp [none]
  · rename_i begun
    simp [begun]

theorem Clear.oneLine {layout : Layout} (clear : layout.Clear) {line : String}
    (member : line ∈ layout.lines) : OneLine line.toList := by
  rcases mem_lines_iff.mp member with ⟨ended, inside, rfl⟩ | ⟨-, rfl⟩
  · exact clear.ended ended inside
  · exact clear.rest

theorem flatMap_lines (layout : Layout) :
    layout.lines.flatMap String.toList =
      layout.ended.flatMap (fun line => line.text.toList) ++ layout.rest.toList := by
  unfold lines
  rw [List.flatMap_append, List.flatMap_map]
  split
  · rename_i none
    rw [none]
    rfl
  · rw [List.flatMap_singleton]

theorem Clear.flatMap_lines_eq_filter {layout : Layout} (clear : layout.Clear) :
    layout.lines.flatMap String.toList = layout.chars.filter fun c => !endsLine c := by
  rw [flatMap_lines]
  unfold chars
  rw [List.filter_append, List.filter_flatMap, filter_oneLine clear.rest]
  congr 1
  apply List.flatMap_congr
  intro line member
  unfold EndedLine.chars
  rw [List.filter_append, filter_oneLine (clear.ended line member), filter_lineEnd,
    List.append_nil]

end Layout

open Layout

/-- A text is split into the lines of its clear layout, and every text has one: no line holds a line
end, and the lines together hold all but the line ends. -/
theorem splitLines_eq_iff (text : String) :
    (∀ lines, splitLines text = lines ↔
      ∃ layout : Layout, layout.Clear ∧ layout.text = text ∧ layout.lines = lines) ∧
    (∀ line ∈ splitLines text, OneLine line.toList) ∧
    (splitLines text).flatMap String.toList = text.toList.filter fun c => !endsLine c := by
  obtain ⟨layout, clear, written⟩ := exists_clear text.toList
  have same : layout.text = text := by
    unfold Layout.text
    rw [written, String.ofList_toList]
  have split := clear.splitLines_text
  rw [same] at split
  refine ⟨fun lines => ⟨?_, ?_⟩, ?_, ?_⟩
  · rintro rfl
    exact ⟨layout, clear, same, split.symm⟩
  · rintro ⟨other, clearOther, rfl, rfl⟩
    exact clearOther.splitLines_text
  · rw [split]
    exact fun line => clear.oneLine
  · rw [split, clear.flatMap_lines_eq_filter, written]

/-- All three ends, empty lines behind each of them, and a last line without an end. -/
theorem splitLines_eq_iff_mixed :
    Clear ⟨[⟨"a", .both⟩, ⟨"", .carriage⟩, ⟨"", .both⟩, ⟨"", .feed⟩, ⟨"b", .carriage⟩, ⟨" ", .feed⟩],
      "c"⟩ ∧
    splitLines "a\r\n\r\r\n\nb\r \nc" = ["a", "", "", "", "b", " ", "c"] := by
  have clear : Clear ⟨[⟨"a", .both⟩, ⟨"", .carriage⟩, ⟨"", .both⟩, ⟨"", .feed⟩, ⟨"b", .carriage⟩,
      ⟨" ", .feed⟩], "c"⟩ := ⟨by decide, by decide, by decide⟩
  exact ⟨clear, ((splitLines_eq_iff _).1 _).mpr ⟨_, clear, rfl, rfl⟩⟩

/-- A carriage return and a line feed behind it end one line and not two. -/
example : splitLines "a\r\nb" = ["a", "b"] := by decide

end CommentOutline.Text
