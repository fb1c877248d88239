import CommentOutline.Proofs.Comment.Reading
import CommentOutline.Proofs.Text.Pieces

set_option autoImplicit false

/-! Annotations written into a line. Where no opener and not the marker begins with a blank and no
opener is the front of another one, an opener and a marker that were written are read where they
were written. A label without blanks at its ends is then read back as it was, and the closer behind
it is told from it. -/

namespace CommentOutline.Comment

open Text (isBlank dropBlanks dropEndBlanks stripChars)

def BeginsBlank (cs : List Char) : Prop := ∃ c rest, cs = c :: rest ∧ isBlank c = true

instance : (cs : List Char) → Decidable (BeginsBlank cs)
  | [] => isFalse fun begins => by
      obtain ⟨c, rest, split, -⟩ := begins
      cases split
  | first :: more => decidable_of_iff (isBlank first = true)
      ⟨fun blank => ⟨first, more, rfl, blank⟩, fun begins => by
        obtain ⟨c, rest, split, blank⟩ := begins
        rwa [(List.cons.inj split).1]⟩

def Visible (cs : List Char) : Prop := ∃ c rest, cs = c :: rest ∧ isBlank c = false

theorem visible_of_not_beginsBlank {cs : List Char} (nonempty : cs ≠ [])
    (sharp : ¬ BeginsBlank cs) : Visible cs := by
  obtain ⟨c, rest, rfl⟩ := List.exists_cons_of_ne_nil nonempty
  refine ⟨c, rest, rfl, ?_⟩
  rw [← Bool.not_eq_true]
  exact fun blank => sharp ⟨c, rest, rfl, blank⟩

theorem Visible.append {cs : List Char} (visible : Visible cs) (more : List Char) :
    Visible (cs ++ more) := by
  obtain ⟨c, rest, rfl, solid⟩ := visible
  exact ⟨c, rest ++ more, rfl, solid⟩

theorem Visible.not_front {start cs : List Char} (visible : Visible start)
    (begins : BeginsBlank cs) : ¬ start <+: cs := by
  obtain ⟨c, rest, rfl, solid⟩ := visible
  obtain ⟨first, more, rfl, blank⟩ := begins
  intro front
  obtain ⟨rfl, -⟩ := List.cons_prefix_cons.mp front
  rw [blank] at solid
  cases solid

/-! ### Blanks before what is visible -/

/-- All blanks are taken first; with fewer of them, the rest begins with a blank. -/
theorem afterBlanks_append {blanks rest : List Char} (blank : Blank blanks)
    (visible : Visible rest) :
    ∃ fewer, afterBlanks (blanks ++ rest) = rest :: fewer ∧ ∀ other ∈ fewer, BeginsBlank other := by
  induction blanks with
  | nil =>
      obtain ⟨c, cs, rfl, solid⟩ := visible
      refine ⟨[], ?_, List.forall_mem_nil _⟩
      rw [List.nil_append, afterBlanks, if_neg (Bool.eq_false_iff.mp solid)]
  | cons c blanks ih =>
      rw [blank_cons] at blank
      obtain ⟨fewer, listed, begin⟩ := ih blank.2
      refine ⟨fewer ++ [c :: (blanks ++ rest)], ?_, ?_⟩
      · rw [List.cons_append, afterBlanks, if_pos blank.1, listed, List.cons_append]
      · intro other member
        rcases List.mem_append.mp member with front | last
        · exact begin other front
        · exact ⟨c, blanks ++ rest, List.mem_singleton.mp last, blank.1⟩

variable {Found : Type} {search : List Char → Option Found} {blanks rest : List Char}

theorem findSome?_afterBlanks_of_found (blank : Blank blanks) (visible : Visible rest)
    {found : Found} (here : search rest = some found) :
    (afterBlanks (blanks ++ rest)).findSome? search = some found := by
  obtain ⟨fewer, listed, -⟩ := afterBlanks_append blank visible
  rw [listed, List.findSome?_cons, here]

/-- A search that never succeeds at a blank takes all blanks or none. -/
theorem findSome?_afterBlanks_eq (blank : Blank blanks) (visible : Visible rest)
    (idle : ∀ cs, BeginsBlank cs → search cs = none) :
    (afterBlanks (blanks ++ rest)).findSome? search = search rest := by
  obtain ⟨fewer, listed, begin⟩ := afterBlanks_append blank visible
  have nowhere : fewer.findSome? search = none :=
    List.findSome?_eq_none_iff.mpr fun other member => idle other (begin other member)
  rw [listed, List.findSome?_cons, nowhere]
  cases search rest <;> rfl

theorem findSome?_eq_of_only {Candidate : Type} {search : Candidate → Option Found}
    {candidates : List Candidate} {one : Candidate} (member : one ∈ candidates)
    (only : ∀ other ∈ candidates, other = one ∨ search other = none) :
    candidates.findSome? search = search one := by
  cases first : candidates.findSome? search with
  | none => exact (List.findSome?_eq_none_iff.mp first one member).symm
  | some found =>
      obtain ⟨other, inside, here⟩ := List.exists_of_findSome?_eq_some first
      rcases only other inside with rfl | missing
      · exact here.symm
      · rw [missing] at here
        cases here

theorem searchBehind_append (start rest : List Char) (search : List Char → Option Found) :
    searchBehind start search (start ++ rest) = (afterBlanks rest).findSome? search := by
  rw [searchBehind, (after?_eq_some_iff start _ rest).mpr rfl, Option.bind_some]

theorem searchBehind_of_not_prefix {start cs : List Char} (apart : ¬ start <+: cs)
    (search : List Char → Option Found) : searchBehind start search cs = none := by
  rw [searchBehind_eq_none_iff]
  intro blanks rest split _
  exact absurd ⟨_, split.symm⟩ apart

/-! ### Openers and the marker -/

/-- Openers and a marker that can be told apart from blanks and from each other. -/
structure Style.Upright (style : Style) : Prop where
  opener : ∀ opener ∈ style.openers, Visible opener.toList
  marker : Visible style.marker.toList
  apart : ∀ opener ∈ style.openers, ∀ other ∈ style.openers,
    opener.toList <+: other.toList → opener = other

theorem Style.upright_standard : Style.standard.Upright where
  opener := by
    simp only [Style.standard, List.forall_mem_cons, List.not_mem_nil, false_implies, implies_true,
      and_true]
    exact ⟨⟨'/', ['/'], rfl, rfl⟩, ⟨'/', ['*'], rfl, rfl⟩⟩
  marker := ⟨'#', ['-', '-'], rfl, rfl⟩
  apart := by decide

/-- Text with an opener and a marker written into it, before all that follows the marker. -/
def Style.head (style : Style) (lead : List Char) (opener : String) (gap : List Char) : List Char :=
  lead ++ (opener.toList ++ (gap ++ style.marker.toList))

variable {style : Style} {opener : String} {lead gap : List Char}

theorem Style.Upright.afterOpener?_written (upright : style.Upright) (blank : Blank gap)
    (opener : String) (rest : List Char) :
    afterOpener? style (opener.toList ++ (gap ++ (style.marker.toList ++ rest))) opener =
      (afterBlanks rest).findSome? (payload? style.closer.toList) := by
  have idle : ∀ cs, BeginsBlank cs → afterMarker? style cs = none := fun cs begins =>
    searchBehind_of_not_prefix (upright.marker.not_front begins) _
  have behind : (afterBlanks (gap ++ (style.marker.toList ++ rest))).findSome?
      (afterMarker? style) = afterMarker? style (style.marker.toList ++ rest) :=
    findSome?_afterBlanks_eq blank (upright.marker.append rest) idle
  exact (searchBehind_append opener.toList _ _).trans
    (behind.trans (searchBehind_append style.marker.toList _ _))

theorem Style.Upright.findSome?_written (upright : style.Upright) (member : opener ∈ style.openers)
    (blank : Blank gap) (rest : List Char) :
    style.openers.findSome?
        (afterOpener? style (opener.toList ++ (gap ++ (style.marker.toList ++ rest)))) =
      (afterBlanks rest).findSome? (payload? style.closer.toList) := by
  rw [← upright.afterOpener?_written blank opener rest]
  apply findSome?_eq_of_only member
  intro other inside
  rw [or_iff_not_imp_left]
  intro differs
  refine searchBehind_of_not_prefix (fun front => ?_) _
  rcases List.prefix_or_prefix_of_prefix front (List.prefix_append _ _) with short | long
  · exact differs (upright.apart other inside opener member short)
  · exact differs (upright.apart opener member other inside long).symm

theorem Style.Upright.matchChars?_written (upright : style.Upright)
    (member : opener ∈ style.openers) (blankLead : Blank lead) (blankGap : Blank gap)
    (rest : List Char) :
    matchChars? style (style.head lead opener gap ++ rest) =
      (afterBlanks rest).findSome? (payload? style.closer.toList) := by
  have idle : ∀ cs, BeginsBlank cs → style.openers.findSome? (afterOpener? style cs) = none := by
    intro cs begins
    rw [List.findSome?_eq_none_iff]
    intro other inside
    exact searchBehind_of_not_prefix ((upright.opener other inside).not_front begins) _
  have visible := (upright.opener opener member).append (gap ++ (style.marker.toList ++ rest))
  rw [Style.head, matchChars?]
  simp only [List.append_assoc]
  rw [findSome?_afterBlanks_eq blankLead visible idle]
  exact upright.findSome?_written member blankGap rest

/-! ### Labels -/

theorem payload?_of_shortest {closer label behind : List Char} (nonempty : label ≠ [])
    (oneLine : '\n' ∉ label) (ends : Tail closer behind)
    (shortest : ∀ front back, label = front ++ back → front ≠ [] → back ≠ [] →
      ¬ Tail closer (back ++ behind)) :
    payload? closer (label ++ behind) = some label := by
  have reads : ReadsPayload closer (label ++ behind) label :=
    ⟨nonempty, oneLine, behind, rfl, ends⟩
  cases found : payload? closer (label ++ behind) with
  | none => exact absurd reads ((payload?_eq_none_iff closer _).mp found label)
  | some payload =>
      obtain ⟨⟨begun, -, rest, split, tail⟩, least⟩ := readsPayload_of_payload? closer _ found
      obtain ⟨back, rfl⟩ := List.prefix_of_prefix_length_le ⟨rest, split.symm⟩
        (List.prefix_append label behind) (least label reads)
      cases back with
      | nil => rw [List.append_nil]
      | cons c back =>
          rw [List.append_assoc] at split
          rw [← List.append_cancel_left split] at tail
          exact absurd tail (shortest payload (c :: back) rfl begun (List.cons_ne_nil _ _))

def EndsVisible (cs : List Char) : Prop := ∃ front c, cs = front ++ [c] ∧ isBlank c = false

theorem EndsVisible.back {front back : List Char} (ends : EndsVisible (front ++ back))
    (nonempty : back ≠ []) : EndsVisible back := by
  obtain ⟨start, last, split, solid⟩ := ends
  rcases List.eq_nil_or_concat' back with rfl | ⟨more, c, rfl⟩
  · exact absurd rfl nonempty
  · rw [← List.append_assoc] at split
    have same := List.head_eq_of_cons_eq (List.append_inj' split rfl).2
    exact ⟨more, c, rfl, same ▸ solid⟩

theorem EndsVisible.not_blank {cs : List Char} (ends : EndsVisible cs) : ¬ Blank cs := by
  obtain ⟨front, c, rfl, solid⟩ := ends
  intro blank
  rw [blank c List.mem_concat_self] at solid
  cases solid

theorem EndsVisible.stripChars_suffix {cs : List Char} (ends : EndsVisible cs) :
    stripChars cs <:+ cs := by
  obtain ⟨front, c, rfl, solid⟩ := ends
  have kept : dropBlanks (front ++ [c]) = dropBlanks front ++ [c] := by
    rw [dropBlanks, List.dropWhile_append]
    split
    · rename_i allBlank
      rw [dropBlanks, List.isEmpty_iff.mp allBlank,
        List.dropWhile_cons_of_neg (Bool.eq_false_iff.mp solid), List.nil_append]
    · rfl
  have whole : dropEndBlanks (dropBlanks front ++ [c]) = dropBlanks front ++ [c] :=
    List.rdropWhile_concat_neg isBlank _ _ (Bool.eq_false_iff.mp solid)
  rw [stripChars, kept, whole, ← kept]
  exact List.dropWhile_suffix isBlank

def solidCount (cs : List Char) : Nat := cs.countP fun c => !isBlank c

theorem solidCount_append (first second : List Char) :
    solidCount (first ++ second) = solidCount first + solidCount second :=
  List.countP_append

theorem solidCount_eq_zero_iff (cs : List Char) : solidCount cs = 0 ↔ Blank cs := by
  rw [solidCount, List.countP_eq_zero]
  simp only [Bool.not_eq_true', Bool.not_eq_false, Blank]

theorem Tail.blank_or_closed {closer cs : List Char} (tail : Tail closer cs) :
    Blank cs ∨ ∃ before after, Blank before ∧ Blank after ∧ cs = before ++ (closer ++ after) := by
  obtain ⟨before, closing, after, rfl, blank, blank', rfl | rfl⟩ := tail
  · exact Or.inl (List.forall_mem_append.mpr ⟨blank, blank'⟩)
  · exact Or.inr ⟨before, after, blank, blank', rfl⟩

theorem Tail.solidCount_cases {closer cs : List Char} (tail : Tail closer cs) :
    solidCount cs = 0 ∨ solidCount cs = solidCount closer := by
  rcases tail.blank_or_closed with blank | ⟨before, after, blank, blank', rfl⟩
  · exact Or.inl ((solidCount_eq_zero_iff cs).mpr blank)
  · rw [solidCount_append, solidCount_append, (solidCount_eq_zero_iff before).mpr blank,
      (solidCount_eq_zero_iff after).mpr blank']
    exact Or.inr (Nat.zero_add _)

theorem not_tail_before_closer {closer back trail rest : List Char} (ends : EndsVisible back) :
    ¬ Tail closer (back ++ (trail ++ (closer ++ rest))) := by
  intro tail
  have some_solid : solidCount back ≠ 0 := (solidCount_eq_zero_iff back).not.mpr ends.not_blank
  have counted := tail.solidCount_cases
  simp only [solidCount_append] at counted
  omega

theorem stripChars_of_blank_around {before cs after : List Char} (blank : Blank before)
    (blank' : Blank after) : stripChars (before ++ (cs ++ after)) = stripChars cs := by
  have behind : stripChars (cs ++ after) = stripChars cs := by
    induction after using List.reverseRecOn with
    | nil => rw [List.append_nil]
    | append_singleton after c ih =>
        rw [Blank, List.forall_mem_append] at blank'
        rw [← List.append_assoc,
          Text.stripChars_concat_blank (blank'.2 c (List.mem_singleton_self c)), ih blank'.1]
  induction before with
  | nil => exact behind
  | cons c before ih =>
      rw [blank_cons] at blank
      rw [List.cons_append, Text.stripChars_cons_blank blank.1, ih blank.2]

theorem not_tail_of_not_suffix {closer back trail : List Char} (ends : EndsVisible back)
    (blank : Blank trail) (told : Blank closer ∨ ¬ stripChars closer <:+ back) :
    ¬ Tail closer (back ++ trail) := by
  intro tail
  have some_solid : ¬ Blank (back ++ trail) := fun all =>
    ends.not_blank (List.forall_mem_append.mp all).1
  rcases tail.blank_or_closed with allBlank | ⟨before, after, blankBefore, blankAfter, split⟩
  · exact some_solid allBlank
  · rcases told with noCloser | other
    · rw [split] at some_solid
      exact some_solid (List.forall_mem_append.mpr
        ⟨blankBefore, List.forall_mem_append.mpr ⟨noCloser, blankAfter⟩⟩)
    · have stripped := congrArg stripChars split
      have nothing : Blank [] := List.forall_mem_nil _
      rw [stripChars_of_blank_around blankBefore blankAfter] at stripped
      have same : stripChars ([] ++ (back ++ trail)) = stripChars back :=
        stripChars_of_blank_around nothing blank
      rw [List.nil_append, stripped] at same
      rw [same] at other
      exact other ends.stripChars_suffix

/-- A label as it is written: a text on one line that begins and ends visibly. -/
structure IsLabel (label : String) : Prop where
  nonempty : label ≠ ""
  oneLine : '\n' ∉ label.toList
  trimmed : Text.strip label = label

theorem IsLabel.stripChars_eq {label : String} (given : IsLabel label) :
    stripChars label.toList = label.toList := by
  have same := congrArg String.toList given.trimmed
  rwa [Text.strip, String.toList_ofList] at same

theorem IsLabel.toList_ne_nil {label : String} (given : IsLabel label) : label.toList ≠ [] :=
  fun none => given.nonempty (String.toList_eq_nil_iff.mp none)

theorem IsLabel.visible {label : String} (given : IsLabel label) : Visible label.toList := by
  obtain ⟨c, rest, split⟩ := List.exists_cons_of_ne_nil given.toList_ne_nil
  have solid := ((Text.stripChars_eq_self_iff _).mp given.stripChars_eq).1
  exact ⟨c, rest, split, solid c rest split⟩

theorem IsLabel.endsVisible {label : String} (given : IsLabel label) :
    EndsVisible label.toList := by
  rcases List.eq_nil_or_concat' label.toList with none | ⟨front, c, split⟩
  · exact absurd none given.toList_ne_nil
  · have solid := ((Text.stripChars_eq_self_iff _).mp given.stripChars_eq).2
    exact ⟨front, c, split, solid front c split⟩

/-- A label that was written is read back, if what stands behind it is a tail and no tail begins
inside it. -/
theorem Style.Upright.matchLine?_label {label text : String} (upright : style.Upright)
    (member : opener ∈ style.openers) (blankLead : Blank lead) (blankGap : Blank gap)
    (given : IsLabel label) {space behind : List Char} (blankSpace : Blank space)
    (ends : Tail style.closer.toList behind)
    (shortest : ∀ front back, label.toList = front ++ back → front ≠ [] → EndsVisible back →
      ¬ Tail style.closer.toList (back ++ behind))
    (split : text.toList =
      style.head lead opener gap ++ (space ++ (label.toList ++ behind))) :
    matchLine? style text = some label := by
  have read : payload? style.closer.toList (label.toList ++ behind) = some label.toList := by
    apply payload?_of_shortest given.toList_ne_nil given.oneLine ends
    intro front back whole begun nonempty
    have endsWhole := given.endsVisible
    rw [whole] at endsWhole
    exact shortest front back whole begun (endsWhole.back nonempty)
  rw [matchLine?_eq_some_iff]
  refine ⟨label.toList, ?_, String.ofList_toList⟩
  rw [split, upright.matchChars?_written member blankLead blankGap]
  exact findSome?_afterBlanks_of_found blankSpace (given.visible.append behind) read

/-- Under texts that make a pattern in which no opener and not the marker begins with a blank and no
opener is the front of another one, a label that is written with an opener and the marker is read
back: before the closer always, and without a closer if it does not end like one. -/
theorem matchLine?_written (openers : List String) (marker separator closer : String)
    (style : Style)
    (accepted : (Settings.ofTexts openers marker separator closer).check = .ok style)
    (sharpOpeners : ∀ opener ∈ openers, ¬ BeginsBlank opener.toList)
    (sharpMarker : ¬ BeginsBlank marker.toList)
    (apart : ∀ opener ∈ openers, ∀ other ∈ openers, opener.toList <+: other.toList →
      opener = other)
    (opener : String) (member : opener ∈ openers) (lead gap space trail rest label : String)
    (blank : ∀ run ∈ [lead, gap, space, trail, rest], Blank run.toList)
    (given : IsLabel label) :
    matchLine? style (lead ++ opener ++ gap ++ marker ++ space ++ label ++ trail ++ closer ++ rest) =
        some label ∧
      (Blank closer.toList ∨ ¬ (Text.strip closer).toList <:+ label.toList →
        matchLine? style (lead ++ opener ++ gap ++ marker ++ space ++ label ++ trail) =
          some label) := by
  obtain ⟨⟨-, noEmpty, someMarker, -⟩, rfl⟩ :=
    (check_ofTexts_eq_ok_iff openers marker separator closer style).mp accepted
  have upright : (Style.mk openers marker (.token separator) closer).Upright :=
    { opener := fun text inside => visible_of_not_beginsBlank
        (fun none => noEmpty (String.toList_eq_nil_iff.mp none ▸ inside)) (sharpOpeners text inside)
      marker := visible_of_not_beginsBlank
        (fun none => someMarker (String.toList_eq_nil_iff.mp none)) sharpMarker
      apart := apart }
  simp only [List.forall_mem_cons, List.not_mem_nil, false_implies, implies_true, and_true] at blank
  obtain ⟨blankLead, blankGap, blankSpace, blankTrail, blankRest⟩ := blank
  have closes : Tail closer.toList (trail.toList ++ (closer.toList ++ rest.toList)) :=
    ⟨_, _, _, rfl, blankTrail, blankRest, Or.inr rfl⟩
  have unclosed : Tail closer.toList trail.toList := tail_of_blank blankTrail
  constructor
  · refine upright.matchLine?_label member blankLead blankGap given blankSpace closes ?_ ?_
    · exact fun front back _ _ ends => not_tail_before_closer ends
    · simp only [String.toList_append, Style.head, List.append_assoc]
  · intro told
    refine upright.matchLine?_label member blankLead blankGap given blankSpace unclosed ?_ ?_
    · intro front back whole _ ends
      refine not_tail_of_not_suffix ends blankTrail (told.imp_right fun other suffix => ?_)
      rw [Text.strip, String.toList_ofList] at other
      exact other (suffix.trans ⟨front, whole.symm⟩)
    · simp only [String.toList_append, Style.head, List.append_assoc]

/-- A closer with a blank in it, a label that ends like the closer, and one that does not. -/
theorem matchLine?_written_closer_inside :
    (Settings.ofTexts ["(*", "--"] "@@" "::" " *)").check =
        .ok ⟨["(*", "--"], "@@", .token "::", " *)"⟩ ∧
      (∀ opener ∈ ["(*", "--"], ¬ BeginsBlank opener.toList) ∧ ¬ BeginsBlank "@@".toList ∧
      (∀ opener ∈ ["(*", "--"], ∀ other ∈ ["(*", "--"], opener.toList <+: other.toList →
        opener = other) ∧
      IsLabel "f *)" ∧
      matchLine? ⟨["(*", "--"], "@@", .token "::", " *)"⟩ "\t(*@@ f *)  *)\n" = some "f *)" ∧
      IsLabel "f *" ∧ ¬ (Text.strip " *)").toList <:+ "f *".toList ∧
      matchLine? ⟨["(*", "--"], "@@", .token "::", " *)"⟩ "-- @@f * " = some "f *" := by
  have given : IsLabel "f *)" := ⟨by decide, by decide, by decide +kernel⟩
  have given' : IsLabel "f *" := ⟨by decide, by decide, by decide +kernel⟩
  have other : ¬ (Text.strip " *)").toList <:+ "f *".toList := by decide +kernel
  have closed := matchLine?_written ["(*", "--"] "@@" "::" " *)" _ (by rfl) (by decide)
    (by decide) (by decide) "(*" (by decide) "\t" "" " " " " "\n" "f *)" (by decide) given
  have unclosed := matchLine?_written ["(*", "--"] "@@" "::" " *)" _ (by rfl) (by decide)
    (by decide) (by decide) "--" (by decide) "" " " "" " " "" "f *" (by decide) given'
  exact ⟨by rfl, by decide, by decide, by decide, given, closed.1, given', other,
    unclosed.2 (Or.inr other)⟩

end CommentOutline.Comment
