import CommentOutline.Proofs.Comment.Scanning
import CommentOutline.Proofs.Comment.Written

set_option autoImplicit false

/-! Comments without a body. A payload is never empty, so blanks behind the marker give up the last
one of them as the payload, and a closer behind the marker is the payload itself. Only a comment
with nothing behind the marker but line feeds is no annotation. -/

namespace CommentOutline.Comment

open Text (isBlank)

/-- A comment with nothing but blanks behind the marker. -/
def Bare (style : Style) (line : String) : Prop :=
  ∃ opener ∈ style.openers, ∃ lead gap space, Blank lead ∧ Blank gap ∧ Blank space ∧
    line.toList = style.head lead opener gap ++ space

/-- A comment with the closer behind the marker, and then the end of the line, which may have a
closer of its own. -/
def OnlyCloser (style : Style) (line : String) : Prop :=
  ∃ opener ∈ style.openers, ∃ lead gap space behind, Blank lead ∧ Blank gap ∧ Blank space ∧
    Tail style.closer.toList behind ∧
    line.toList = style.head lead opener gap ++ (space ++ (style.closer.toList ++ behind))

variable {style : Style} {line opener : String} {lead gap space : List Char}

/-! ### Blanks behind the marker -/

/-- The search takes as many blanks as it can and leaves one that a payload can hold. -/
theorem findSome?_payload?_of_blank (closer : List Char) {cs : List Char} (blank : Blank cs) :
    (afterBlanks cs).findSome? (payload? closer) =
      (cs.filter (· ≠ '\n')).getLast?.map fun c => [c] := by
  induction cs with
  | nil => rfl
  | cons c cs ih =>
      rw [blank_cons] at blank
      rw [afterBlanks, if_pos blank.1, List.findSome?_append, ih blank.2, List.findSome?_singleton,
        payload?, if_pos ((isTail_iff closer cs).mpr (tail_of_blank blank.2)), List.filter_cons]
      by_cases feed : c = '\n'
      · rw [if_pos feed, if_neg (by simpa using feed), Option.or_none]
      · rw [if_neg feed, if_pos (by simpa using feed), List.getLast?_cons]
        cases (cs.filter (· ≠ '\n')).getLast? <;> rfl

theorem Style.Upright.matchLine?_bare (upright : style.Upright) (member : opener ∈ style.openers)
    (blankLead : Blank lead) (blankGap : Blank gap) (blankSpace : Blank space)
    (split : line.toList = style.head lead opener gap ++ space) :
    matchLine? style line = (space.filter (· ≠ '\n')).getLast?.map String.singleton := by
  rw [matchLine?, split, upright.matchChars?_written member blankLead blankGap,
    findSome?_payload?_of_blank _ blankSpace, Option.map_map]
  rfl

theorem Style.Upright.matchLine?_bare_eq_none_iff (upright : style.Upright)
    (member : opener ∈ style.openers) (blankLead : Blank lead) (blankGap : Blank gap)
    (blankSpace : Blank space) (split : line.toList = style.head lead opener gap ++ space) :
    matchLine? style line = none ↔ ∀ c ∈ space, c = '\n' := by
  rw [upright.matchLine?_bare member blankLead blankGap blankSpace split, Option.map_eq_none_iff,
    List.getLast?_eq_none_iff, List.filter_eq_nil_iff]
  simp only [decide_eq_true_eq, not_not]

/-! ### The closer behind the marker -/

theorem not_tail_inside_closer {closer : String} (given : IsLabel closer) {behind : List Char}
    (ends : Tail closer.toList behind) {front back : List Char}
    (whole : closer.toList = front ++ back) (begun : front ≠ []) (visible : EndsVisible back) :
    ¬ Tail closer.toList (back ++ behind) := by
  intro tail
  obtain ⟨c, rest, rfl⟩ := List.exists_cons_of_ne_nil begun
  have some_front : solidCount (c :: rest) ≠ 0 := by
    rw [Ne, solidCount_eq_zero_iff, blank_cons]
    obtain ⟨first, more, start, solid⟩ := given.visible
    rw [whole] at start
    rw [(List.cons.inj start).1, solid]
    exact fun both => Bool.false_ne_true both.1
  have some_back : solidCount back ≠ 0 := (solidCount_eq_zero_iff back).not.mpr visible.not_blank
  have sum := congrArg solidCount whole
  have inside := tail.solidCount_cases
  have outside := ends.solidCount_cases
  rw [solidCount_append] at sum inside
  omega

theorem Style.Upright.matchLine?_onlyCloser (upright : style.Upright) (given : IsLabel style.closer)
    (only : OnlyCloser style line) : matchLine? style line = some style.closer := by
  obtain ⟨opener, member, lead, gap, space, behind, blankLead, blankGap, blankSpace, ends, split⟩ :=
    only
  exact upright.matchLine?_label member blankLead blankGap given blankSpace ends
    (fun _ _ whole begun visible => not_tail_inside_closer given ends whole begun visible) split

/-! ### What a label tells of its line -/

theorem exists_head_of_matchLine? {label : String} (success : matchLine? style line = some label) :
    label ≠ "" ∧ ∃ opener ∈ style.openers, ∃ lead gap space behind,
      Blank lead ∧ Blank gap ∧ Blank space ∧ Tail style.closer.toList behind ∧
      line.toList = style.head lead opener gap ++ (space ++ (label.toList ++ behind)) := by
  obtain ⟨reading, reads, rfl, -⟩ := exists_first_reading success
  obtain ⟨opener, place, split⟩ := reads.pieces
  refine ⟨fun none => reads.payload (String.ofList_eq_empty_iff.mp none), opener,
    List.mem_of_getElem? place, reading.lead, reading.gap, reading.space, _, reads.lead, reads.gap,
    reads.space, ⟨reading.trail, reading.closing, reading.rest, rfl, reads.trail, reads.rest,
      reads.closing⟩, ?_⟩
  rw [split, Style.head, String.toList_ofList]
  simp only [List.append_assoc]

theorem Style.Upright.blank_iff_bare (upright : style.Upright) (given : IsLabel style.closer)
    {label : String} (success : matchLine? style line = some label) :
    Blank label.toList ↔ Bare style line := by
  constructor
  · intro blank
    obtain ⟨-, opener, member, lead, gap, space, behind, blankLead, blankGap, blankSpace, ends,
      split⟩ := exists_head_of_matchLine? success
    have blanks : Blank (space ++ label.toList) := List.forall_mem_append.mpr ⟨blankSpace, blank⟩
    rcases ends.blank_or_closed with allBlank | ⟨before, after, blankBefore, blankAfter, rfl⟩
    · refine ⟨opener, member, lead, gap, space ++ label.toList ++ behind, blankLead, blankGap,
        List.forall_mem_append.mpr ⟨blanks, allBlank⟩, ?_⟩
      rw [split, List.append_assoc space]
    · -- with a closer behind the blanks the closer would be the label
      have only : OnlyCloser style line := by
        refine ⟨opener, member, lead, gap, space ++ label.toList ++ before, after, blankLead,
          blankGap, List.forall_mem_append.mpr ⟨blanks, blankBefore⟩, tail_of_blank blankAfter, ?_⟩
        rw [split]
        simp only [List.append_assoc]
      rw [upright.matchLine?_onlyCloser given only, Option.some.injEq] at success
      rw [← success] at blank
      exact absurd blank given.endsVisible.not_blank
  · intro bare
    obtain ⟨opener, member, lead, gap, space, blankLead, blankGap, blankSpace, split⟩ := bare
    rw [upright.matchLine?_bare member blankLead blankGap blankSpace split,
      Option.map_eq_some_iff] at success
    obtain ⟨c, last, rfl⟩ := success
    have inside := List.mem_of_mem_filter (List.mem_of_getLast? last)
    rw [String.toList_singleton]
    exact fun other only => List.mem_singleton.mp only ▸ blankSpace c inside

theorem Style.Upright.eq_closer_iff (upright : style.Upright) (given : IsLabel style.closer)
    {label : String} (success : matchLine? style line = some label) :
    label = style.closer ↔ OnlyCloser style line := by
  constructor
  · rintro rfl
    exact (exists_head_of_matchLine? success).2
  · intro only
    rw [upright.matchLine?_onlyCloser given only, Option.some.injEq] at success
    exact success.symm

/-! ### The standard style -/

theorem isLabel_standard_closer : IsLabel Style.standard.closer :=
  ⟨by decide, by decide, by decide +kernel⟩

/-- Blanks alone behind the marker of a standard comment give the last of them that is no line feed
as a label, and a closer alone gives the closer: such a comment is refused only without a closer,
and then only if nothing but line feeds stands behind the marker. A scan yields no other labels that
are blank or only the closer. -/
theorem bodiless_labels (opener : String) (member : opener ∈ Style.standard.openers)
    (lead gap space rest : String) (blank : ∀ run ∈ [lead, gap, space, rest], Blank run.toList) :
    matchLine? .standard (lead ++ opener ++ gap ++ "#--" ++ space) =
        (space.toList.filter (· ≠ '\n')).getLast?.map String.singleton ∧
      (matchLine? .standard (lead ++ opener ++ gap ++ "#--" ++ space) = none ↔
        ∀ c ∈ space.toList, c = '\n') ∧
      matchLine? .standard (lead ++ opener ++ gap ++ "#--" ++ space ++ "*/" ++ rest) = some "*/" ∧
      ∀ (document : Document) (label : String) (number : Int),
        (label, number) ∈ document.scan .standard →
          ∃ line, document.lineAt? number = some line ∧ label ≠ "" ∧
            (Blank label.toList ↔ Bare .standard line) ∧
            (label = "*/" ↔ OnlyCloser .standard line) := by
  have upright := Style.upright_standard
  simp only [List.forall_mem_cons, List.not_mem_nil, false_implies, implies_true,
    and_true] at blank
  obtain ⟨blankLead, blankGap, blankSpace, blankRest⟩ := blank
  have split : (lead ++ opener ++ gap ++ "#--" ++ space).toList =
      Style.standard.head lead.toList opener gap.toList ++ space.toList := by
    simp only [String.toList_append, Style.head, List.append_assoc]
    rfl
  have closed : OnlyCloser .standard
      (lead ++ opener ++ gap ++ "#--" ++ space ++ "*/" ++ rest) := by
    refine ⟨opener, member, lead.toList, gap.toList, space.toList, rest.toList, blankLead,
      blankGap, blankSpace, tail_of_blank blankRest, ?_⟩
    rw [String.toList_append, String.toList_append, split]
    simp only [List.append_assoc]
    rfl
  refine ⟨upright.matchLine?_bare member blankLead blankGap blankSpace split,
    upright.matchLine?_bare_eq_none_iff member blankLead blankGap blankSpace split,
    upright.matchLine?_onlyCloser isLabel_standard_closer closed, ?_⟩
  intro document label number yielded
  obtain ⟨-, line, present, success⟩ := (document.mem_scan_iff _ _ _).mp yielded
  exact ⟨line, present, (exists_head_of_matchLine? success).1,
    upright.blank_iff_bare isLabel_standard_closer success,
    upright.eq_closer_iff isLabel_standard_closer success⟩

/-- A tabulator and a line feed behind the marker, nothing behind it, blanks and the closer; and a
document with a bare line and one with only the closer, whose labels tell of them. -/
theorem bodiless_labels_lines :
    ("//" ∈ Style.standard.openers ∧ (∀ run ∈ ["", " ", "\t\n", ""], Blank run.toList)) ∧
    matchLine? .standard ("" ++ "//" ++ " " ++ "#--" ++ "\t\n") = some "\t" ∧
    matchLine? .standard ("" ++ "//" ++ " " ++ "#--" ++ "") = none ∧
    matchLine? .standard ("  " ++ "/*" ++ "" ++ "#--" ++ "  " ++ "*/" ++ " ") = some "*/" ∧
    (∃ line, (Document.ofText "// #-- a\n/* #-- \n// #-- */").lineAt? 1 = some line ∧
      Bare .standard line) ∧
    ∃ line, (Document.ofText "// #-- a\n/* #-- \n// #-- */").lineAt? 2 = some line ∧
      OnlyCloser .standard line := by
  have slashes : "//" ∈ Style.standard.openers := by decide
  have star : "/*" ∈ Style.standard.openers := by decide
  have blank : ∀ run ∈ ["", " ", "\t\n", ""], Blank run.toList := by decide +kernel
  obtain ⟨fed, -, -, scans⟩ := bodiless_labels "//" slashes "" " " "\t\n" "" blank
  obtain ⟨-, bare, -⟩ := bodiless_labels "//" slashes "" " " "" "" (by decide +kernel)
  obtain ⟨-, -, closed, -⟩ := bodiless_labels "/*" star "  " "" "  " " " (by decide +kernel)
  obtain ⟨first, atOne, -, tellsBare, -⟩ :=
    scans (.ofText "// #-- a\n/* #-- \n// #-- */") " " 1 (by decide +kernel)
  obtain ⟨second, atTwo, -, -, tellsCloser⟩ :=
    scans (.ofText "// #-- a\n/* #-- \n// #-- */") "*/" 2 (by decide +kernel)
  exact ⟨⟨slashes, blank⟩, fed, bare.mpr (by simp), closed,
    ⟨first, atOne, tellsBare.mp (by decide +kernel)⟩, second, atTwo, tellsCloser.mp rfl⟩

/-- A blank body and a closed empty body are annotations. -/
theorem not_refused_of_blank_body :
    ("//" ∈ Style.standard.openers ∧ Blank " ".toList ∧ '\n' ∉ " ".toList ∧
      matchLine? .standard ("" ++ "//" ++ " " ++ "#--" ++ " ") = some " ") ∧
    ("/*" ∈ Style.standard.openers ∧
      matchLine? .standard ("" ++ "/*" ++ " " ++ "#--" ++ " " ++ "*/" ++ "") = some "*/") ∧
    (Document.ofText "// #-- \n/* #-- */").scan .standard = [(" ", 0), ("*/", 1)] := by
  decide +kernel

end CommentOutline.Comment
