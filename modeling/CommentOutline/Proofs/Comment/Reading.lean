import CommentOutline.Proofs.Comment.Search

set_option autoImplicit false

/-! Readings of a line. A reading cuts a line into the pieces of the annotation pattern, and often
one line has several. A line is an annotation if it has a reading, and its payload is that of the
reading that counts first. -/

namespace CommentOutline.Comment

open Config (Value)
open Text (isBlank)

/-- A way to read a line as an annotation. The opener is given by its place in the list. -/
structure Reading where
  lead : List Char
  opener : Nat
  gap : List Char
  space : List Char
  payload : List Char
  trail : List Char
  closing : List Char
  rest : List Char
deriving Repr, DecidableEq

/-- The pieces of a reading are of the right kinds and make up the line. -/
structure Reading.Reads (reading : Reading) (openers : List String) (marker closer text : String) :
    Prop where
  lead : Blank reading.lead
  gap : Blank reading.gap
  space : Blank reading.space
  payload : reading.payload ≠ []
  oneLine : '\n' ∉ reading.payload
  trail : Blank reading.trail
  closing : reading.closing = [] ∨ reading.closing = closer.toList
  rest : Blank reading.rest
  pieces : ∃ opener, openers[reading.opener]? = some opener ∧
    text.toList = reading.lead ++ opener.toList ++ reading.gap ++ marker.toList ++ reading.space ++
      reading.payload ++ reading.trail ++ reading.closing ++ reading.rest

/-- The order in which readings count: the longest lead first, then the earliest opener, the
longest gap, the longest space and the shortest payload. -/
def Reading.NotAfter (first second : Reading) : Prop :=
  second.lead.length < first.lead.length ∨ second.lead.length = first.lead.length ∧
    (first.opener < second.opener ∨ first.opener = second.opener ∧
      (second.gap.length < first.gap.length ∨ second.gap.length = first.gap.length ∧
        (second.space.length < first.space.length ∨ second.space.length = first.space.length ∧
          first.payload.length ≤ second.payload.length)))

def Settings.ofTexts (openers : List String) (marker separator closer : String) : Settings :=
  ⟨.list (openers.map .text), .text marker, .text separator, .text closer⟩

theorem texts?_map_text (texts : List String) : texts? (texts.map Value.text) = some texts := by
  induction texts with
  | nil => rfl
  | cons text texts ih => rw [List.map_cons, texts?, ih, Option.map_some]

theorem check_ofTexts_eq_ok_iff (openers : List String) (marker separator closer : String)
    (style : Style) :
    (Settings.ofTexts openers marker separator closer).check = .ok style ↔
      (openers ≠ [] ∧ "" ∉ openers ∧ marker ≠ "" ∧ separator ≠ "") ∧
        style = ⟨openers, marker, .token separator, closer⟩ := by
  have openerTexts : openerTexts? (Value.list (openers.map .text)) = some openers :=
    texts?_map_text openers
  have closerTyped : (Value.text closer).isText = true := rfl
  have kept : (Value.text closer).text?.getD "" = closer := rfl
  rw [Settings.ofTexts, Settings.check]
  simp only [openerTexts, closerTyped, kept, separatorOf, Value.isSet, Bool.not_true,
    Bool.and_false, Bool.not_eq_true', bne_eq_false_iff_eq, Bool.or_eq_true, List.isEmpty_iff,
    List.contains_iff_mem, Bool.false_eq_true, if_false]
  by_cases badOpeners : openers = [] ∨ "" ∈ openers
  · rw [if_pos badOpeners]
    refine iff_of_false (fun same => nomatch same) ?_
    intro given
    rcases given with ⟨⟨some_opener, noEmpty, -, -⟩, -⟩
    exact badOpeners.elim some_opener noEmpty
  · rw [if_neg badOpeners]
    rw [not_or] at badOpeners
    by_cases noMarker : marker = ""
    · rw [if_pos noMarker]
      exact iff_of_false (fun same => nomatch same) fun both => both.1.2.2.1 noMarker
    · rw [if_neg noMarker]
      by_cases noSeparator : separator = ""
      · rw [if_pos noSeparator]
        exact iff_of_false (fun same => nomatch same) fun both => both.1.2.2.2 noSeparator
      · rw [if_neg noSeparator, Except.ok.injEq, eq_comm]
        exact (and_iff_right ⟨badOpeners.1, badOpeners.2, noMarker, noSeparator⟩).symm

/-! ### From stage to stage -/

def ReadsMarker (style : Style) (cs space payload : List Char) : Prop :=
  Blank space ∧ ∃ rest, cs = style.marker.toList ++ (space ++ rest) ∧
    ReadsPayload style.closer.toList rest payload

def ReadsOpener (style : Style) (opener : String) (cs gap space payload : List Char) : Prop :=
  Blank gap ∧ ∃ rest, cs = opener.toList ++ (gap ++ rest) ∧ ReadsMarker style rest space payload

def ReadsLine (style : Style) (cs lead : List Char) (opener : Nat)
    (gap space payload : List Char) : Prop :=
  Blank lead ∧ ∃ rest text, cs = lead ++ rest ∧ style.openers[opener]? = some text ∧
    ReadsOpener style text rest gap space payload

theorem afterMarker?_eq_none_iff (style : Style) (cs : List Char) :
    afterMarker? style cs = none ↔ ∀ space payload, ¬ ReadsMarker style cs space payload := by
  refine (searchBehind_eq_none_iff style.marker.toList _ cs).trans ?_
  simp only [payload?_eq_none_iff]
  constructor
  · intro nowhere space payload given
    rcases given with ⟨blank, rest, split, read⟩
    exact nowhere space rest split blank payload read
  · intro nowhere space rest split blank payload read
    exact nowhere space payload ⟨blank, rest, split, read⟩

theorem readsMarker_of_afterMarker? (style : Style) (cs : List Char) {payload : List Char}
    (success : afterMarker? style cs = some payload) :
    ∃ space, ReadsMarker style cs space payload ∧
      ∀ space' payload', ReadsMarker style cs space' payload' →
        space'.length < space.length ∨
          space'.length = space.length ∧ payload.length ≤ payload'.length := by
  obtain ⟨space, rest, split, blank, here, others⟩ :=
    exists_of_searchBehind style.marker.toList _ cs success
  obtain ⟨read, shortest⟩ := readsPayload_of_payload? _ rest here
  refine ⟨space, ⟨blank, rest, split, read⟩, ?_⟩
  intro space' payload' given
  rcases given with ⟨blank', rest', split', read'⟩
  rcases others space' rest' split' blank' with shorter | ⟨rfl, rfl⟩ | missing
  · exact Or.inl shorter
  · exact Or.inr ⟨rfl, shortest payload' read'⟩
  · exact absurd read' ((payload?_eq_none_iff _ rest').mp missing payload')

theorem afterOpener?_eq_none_iff (style : Style) (cs : List Char) (opener : String) :
    afterOpener? style cs opener = none ↔
      ∀ gap space payload, ¬ ReadsOpener style opener cs gap space payload := by
  refine (searchBehind_eq_none_iff opener.toList _ cs).trans ?_
  simp only [afterMarker?_eq_none_iff]
  constructor
  · intro nowhere gap space payload given
    rcases given with ⟨blank, rest, split, read⟩
    exact nowhere gap rest split blank space payload read
  · intro nowhere gap rest split blank space payload read
    exact nowhere gap space payload ⟨blank, rest, split, read⟩

theorem readsOpener_of_afterOpener? (style : Style) (cs : List Char) (opener : String)
    {payload : List Char} (success : afterOpener? style cs opener = some payload) :
    ∃ gap space, ReadsOpener style opener cs gap space payload ∧
      ∀ gap' space' payload', ReadsOpener style opener cs gap' space' payload' →
        gap'.length < gap.length ∨ gap'.length = gap.length ∧
          (space'.length < space.length ∨
            space'.length = space.length ∧ payload.length ≤ payload'.length) := by
  obtain ⟨gap, rest, split, blank, here, others⟩ :=
    exists_of_searchBehind opener.toList _ cs success
  obtain ⟨space, read, first⟩ := readsMarker_of_afterMarker? style rest here
  refine ⟨gap, space, ⟨blank, rest, split, read⟩, ?_⟩
  intro gap' space' payload' given
  rcases given with ⟨blank', rest', split', read'⟩
  rcases others gap' rest' split' blank' with shorter | ⟨rfl, rfl⟩ | missing
  · exact Or.inl shorter
  · exact Or.inr ⟨rfl, first space' payload' read'⟩
  · exact absurd read' ((afterMarker?_eq_none_iff style rest').mp missing space' payload')

theorem findSome?_openers_eq_none_iff (style : Style) (cs : List Char) :
    style.openers.findSome? (afterOpener? style cs) = none ↔
      ∀ (opener : Nat) (text : String), style.openers[opener]? = some text →
        ∀ gap space payload, ¬ ReadsOpener style text cs gap space payload := by
  rw [List.findSome?_eq_none_iff]
  simp only [afterOpener?_eq_none_iff]
  constructor
  · exact fun nowhere opener text here => nowhere text (List.mem_of_getElem? here)
  · intro nowhere text member
    obtain ⟨opener, here⟩ := List.getElem?_of_mem member
    exact nowhere opener text here

theorem matchChars?_eq_none_iff (style : Style) (cs : List Char) :
    matchChars? style cs = none ↔
      ∀ lead opener gap space payload, ¬ ReadsLine style cs lead opener gap space payload := by
  rw [matchChars?, findSome?_afterBlanks_eq_none_iff]
  simp only [findSome?_openers_eq_none_iff]
  constructor
  · intro nowhere lead opener gap space payload given
    rcases given with ⟨blank, rest, text, split, here, read⟩
    exact nowhere lead rest split blank opener text here gap space payload read
  · intro nowhere lead rest split blank opener text here gap space payload read
    exact nowhere lead opener gap space payload ⟨blank, rest, text, split, here, read⟩

theorem readsLine_of_matchChars? (style : Style) (cs : List Char) {payload : List Char}
    (success : matchChars? style cs = some payload) :
    ∃ lead opener gap space, ReadsLine style cs lead opener gap space payload ∧
      ∀ lead' opener' gap' space' payload',
        ReadsLine style cs lead' opener' gap' space' payload' →
        lead'.length < lead.length ∨ lead'.length = lead.length ∧
          (opener < opener' ∨ opener = opener' ∧
            (gap'.length < gap.length ∨ gap'.length = gap.length ∧
              (space'.length < space.length ∨
                space'.length = space.length ∧ payload.length ≤ payload'.length))) := by
  obtain ⟨lead, rest, split, blank, found, others⟩ := exists_of_findSome?_afterBlanks _ cs success
  obtain ⟨before, text, after, openers, here, earlier⟩ := List.findSome?_eq_some_iff.mp found
  have place : style.openers[before.length]? = some text := by
    rw [openers, List.getElem?_append_right (Nat.le_refl _), Nat.sub_self, List.getElem?_cons_zero]
  obtain ⟨gap, space, read, first⟩ := readsOpener_of_afterOpener? style rest text here
  refine ⟨lead, before.length, gap, space, ⟨blank, rest, text, split, place, read⟩, ?_⟩
  intro lead' opener' gap' space' payload' given
  rcases given with ⟨blank', rest', text', split', place', read'⟩
  rcases others lead' rest' split' blank' with shorter | ⟨rfl, rfl⟩ | missing
  · exact Or.inl shorter
  · refine Or.inr ⟨rfl, ?_⟩
    rcases Nat.lt_trichotomy opener' before.length with sooner | rfl | later
    · rw [openers, List.getElem?_append_left sooner] at place'
      have missing := earlier text' (List.mem_of_getElem? place')
      exact absurd read' ((afterOpener?_eq_none_iff style _ text').mp missing gap' space' payload')
    · rw [place, Option.some.injEq] at place'
      rw [← place'] at read'
      exact Or.inr ⟨rfl, first gap' space' payload' read'⟩
    · exact Or.inl later
  · exact absurd read'
      ((findSome?_openers_eq_none_iff style rest').mp missing opener' text' place' gap' space'
        payload')

/-! ### Whole lines -/

theorem Reading.Reads.readsLine {reading : Reading} {style : Style} {text : String}
    (reads : reading.Reads style.openers style.marker style.closer text) :
    ReadsLine style text.toList reading.lead reading.opener reading.gap reading.space
      reading.payload := by
  obtain ⟨opener, place, split⟩ := reads.pieces
  simp only [List.append_assoc] at split
  exact ⟨reads.lead, _, opener, split, place, reads.gap, _, rfl, reads.space, _, rfl,
    reads.payload, reads.oneLine, _, rfl, reading.trail, reading.closing, reading.rest, rfl,
    reads.trail, reads.rest, reads.closing⟩

theorem ReadsLine.exists_reading {style : Style} {text : String} {lead : List Char} {opener : Nat}
    {gap space payload : List Char}
    (read : ReadsLine style text.toList lead opener gap space payload) :
    ∃ trail closing rest, (Reading.mk lead opener gap space payload trail closing rest).Reads
      style.openers style.marker style.closer text := by
  obtain ⟨leadBlank, _, word, split, place, gapBlank, _, rfl, spaceBlank, _, rfl, some_char,
    oneLine, _, rfl, trail, closing, rest, rfl, trailBlank, restBlank, closed⟩ := read
  refine ⟨trail, closing, rest, leadBlank, gapBlank, spaceBlank, some_char, oneLine, trailBlank,
    closed, restBlank, word, place, ?_⟩
  rw [split]
  simp only [List.append_assoc]

theorem Reading.payload_eq_of_notAfter {first second : Reading} {openers : List String}
    {marker closer text : String} (reads : first.Reads openers marker closer text)
    (reads' : second.Reads openers marker closer text) (forth : first.NotAfter second)
    (back : second.NotAfter first) : first.payload = second.payload := by
  obtain ⟨opener, place, split⟩ := reads.pieces
  obtain ⟨opener', place', split'⟩ := reads'.pieces
  unfold Reading.NotAfter at forth back
  have ranks : first.lead.length = second.lead.length ∧ first.opener = second.opener ∧
      first.gap.length = second.gap.length ∧ first.space.length = second.space.length ∧
      first.payload.length = second.payload.length := by omega
  obtain ⟨leads, places, gaps, spaces, payloads⟩ := ranks
  rw [places, place', Option.some.injEq] at place
  rw [split, place] at split'
  simp only [List.append_assoc] at split'
  have afterLead := (List.append_inj split' leads).2
  have afterGap := (List.append_inj (List.append_cancel_left afterLead) gaps).2
  have afterSpace := (List.append_inj (List.append_cancel_left afterGap) spaces).2
  exact (List.append_inj afterSpace payloads).1

theorem matchLine?_eq_some_iff (style : Style) (text payload : String) :
    matchLine? style text = some payload ↔
      ∃ chars, matchChars? style text.toList = some chars ∧ String.ofList chars = payload := by
  rw [matchLine?, Option.map_eq_some_iff]

theorem isSome_matchLine?_iff (style : Style) (text : String) :
    (matchLine? style text).isSome = true ↔
      ∃ reading : Reading, reading.Reads style.openers style.marker style.closer text := by
  rw [matchLine?, Option.isSome_map]
  constructor
  · intro success
    obtain ⟨chars, found⟩ := Option.isSome_iff_exists.mp success
    obtain ⟨lead, opener, gap, space, read, -⟩ := readsLine_of_matchChars? style _ found
    obtain ⟨trail, closing, rest, reads⟩ := read.exists_reading
    exact ⟨_, reads⟩
  · intro given
    rcases given with ⟨reading, reads⟩
    rw [Option.isSome_iff_ne_none]
    intro missing
    exact (matchChars?_eq_none_iff style _).mp missing _ _ _ _ _ reads.readsLine

theorem exists_first_reading {style : Style} {text payload : String}
    (success : matchLine? style text = some payload) :
    ∃ reading : Reading, reading.Reads style.openers style.marker style.closer text ∧
      String.ofList reading.payload = payload ∧
      ∀ other : Reading, other.Reads style.openers style.marker style.closer text →
        reading.NotAfter other := by
  obtain ⟨chars, found, rfl⟩ := (matchLine?_eq_some_iff style text payload).mp success
  obtain ⟨lead, opener, gap, space, read, first⟩ := readsLine_of_matchChars? style _ found
  obtain ⟨trail, closing, rest, reads⟩ := read.exists_reading
  exact ⟨_, reads, rfl, fun other readsOther => first _ _ _ _ _ readsOther.readsLine⟩

/-- Under texts that make a pattern, a line is an annotation exactly when it has a reading, and its
payload is that of the reading that counts first. -/
theorem matchLine?_eq_first_reading (openers : List String) (marker separator closer : String)
    (style : Style)
    (accepted : (Settings.ofTexts openers marker separator closer).check = .ok style)
    (text : String) :
    ((matchLine? style text).isSome = true ↔
      ∃ reading : Reading, reading.Reads openers marker closer text) ∧
    ∀ payload, matchLine? style text = some payload ↔
      ∃ reading : Reading, reading.Reads openers marker closer text ∧
        String.ofList reading.payload = payload ∧
        ∀ other : Reading, other.Reads openers marker closer text → reading.NotAfter other := by
  obtain ⟨-, rfl⟩ := (check_ofTexts_eq_ok_iff openers marker separator closer style).mp accepted
  refine ⟨isSome_matchLine?_iff _ text, fun payload => ⟨exists_first_reading, ?_⟩⟩
  intro given
  rcases given with ⟨reading, reads, rfl, first⟩
  have success := (isSome_matchLine?_iff ⟨openers, marker, .token separator, closer⟩ text).mpr
    ⟨reading, reads⟩
  obtain ⟨payload, found⟩ := Option.isSome_iff_exists.mp success
  obtain ⟨other, readsOther, rfl, firstOther⟩ := exists_first_reading found
  rw [found, Reading.payload_eq_of_notAfter reads readsOther (first other readsOther)
    (firstOther reading reads)]

theorem matchLine?_eq_first_reading_block :
    (Settings.ofTexts ["//", "/*"] "#--" "::" "*/").check = .ok .standard ∧
    ((matchLine? .standard "/* #-- a */").isSome = true ↔
      ∃ reading : Reading, reading.Reads ["//", "/*"] "#--" "*/" "/* #-- a */") ∧
    ∀ payload, matchLine? .standard "/* #-- a */" = some payload ↔
      ∃ reading : Reading, reading.Reads ["//", "/*"] "#--" "*/" "/* #-- a */" ∧
        String.ofList reading.payload = payload ∧
        ∀ other : Reading, other.Reads ["//", "/*"] "#--" "*/" "/* #-- a */" →
          reading.NotAfter other :=
  ⟨by rfl, matchLine?_eq_first_reading ["//", "/*"] "#--" "::" "*/" _ (by rfl) _⟩

/-- Only the last closer can close a line; one before it belongs to the payload. -/
example : matchLine? .standard "/* #-- a */ */" = some "a */" := by decide +kernel

end CommentOutline.Comment
