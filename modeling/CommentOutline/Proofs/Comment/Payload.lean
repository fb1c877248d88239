import CommentOutline.Proofs.Comment.Reading
import CommentOutline.Proofs.Text.Pieces

set_option autoImplicit false

/-! Payloads and the blanks around them. The blanks before a payload are as many as can be and the
payload is as short as can be, so a blank at either end of a payload belongs to the blanks around
it, unless nothing else is left for the payload. -/

namespace CommentOutline.Comment

open Text (isBlank strip)

namespace Reading

variable {reading : Reading} {openers : List String} {marker closer text : String} {c : Char}
  {more : List Char}

theorem Reads.widen_space (reads : reading.Reads openers marker closer text)
    (begins : reading.payload = c :: more) (blank : isBlank c = true) (left : more ≠ []) :
    { reading with space := reading.space ++ [c], payload := more : Reading }.Reads openers marker
      closer text where
  lead := reads.lead
  gap := reads.gap
  space := List.forall_mem_append.mpr ⟨reads.space, List.forall_mem_singleton.mpr blank⟩
  payload := left
  oneLine := by
    have oneLine := reads.oneLine
    rw [begins, List.mem_cons, not_or] at oneLine
    exact oneLine.2
  trail := reads.trail
  closing := reads.closing
  rest := reads.rest
  pieces := by
    obtain ⟨opener, place, split⟩ := reads.pieces
    refine ⟨opener, place, ?_⟩
    rw [split, begins]
    simp only [List.append_assoc, List.cons_append, List.nil_append]

theorem Reads.widen_trail (reads : reading.Reads openers marker closer text)
    (ends : reading.payload = more ++ [c]) (blank : isBlank c = true) (left : more ≠ []) :
    { reading with payload := more, trail := c :: reading.trail : Reading }.Reads openers marker
      closer text where
  lead := reads.lead
  gap := reads.gap
  space := reads.space
  payload := left
  oneLine := by
    have oneLine := reads.oneLine
    rw [ends, List.mem_append, not_or] at oneLine
    exact oneLine.1
  trail := List.forall_mem_cons.mpr ⟨blank, reads.trail⟩
  closing := reads.closing
  rest := reads.rest
  pieces := by
    obtain ⟨opener, place, split⟩ := reads.pieces
    refine ⟨opener, place, ?_⟩
    rw [split, ends]
    simp only [List.append_assoc, List.cons_append, List.nil_append]

variable (reads : reading.Reads openers marker closer text)
  (first : ∀ other : Reading, other.Reads openers marker closer text → reading.NotAfter other)

include reads first

theorem blank_at_front (begins : reading.payload = c :: more) (blank : isBlank c = true) :
    more = [] := by
  by_contra left
  have earlier := first _ (reads.widen_space begins blank left)
  unfold NotAfter at earlier
  simp only [List.length_append, List.length_singleton] at earlier
  omega

theorem blank_at_end (ends : reading.payload = more ++ [c]) (blank : isBlank c = true) :
    more = [] := by
  by_contra left
  have earlier := first _ (reads.widen_trail ends blank left)
  have longer := congrArg List.length ends
  unfold NotAfter at earlier
  simp only [List.length_append, List.length_singleton] at longer earlier
  omega

theorem trimmed_payload :
    Text.stripChars reading.payload = reading.payload ∨
      ∃ c, isBlank c = true ∧ reading.payload = [c] := by
  by_cases single : ∃ c, isBlank c = true ∧ reading.payload = [c]
  · exact Or.inr single
  · refine Or.inl ((Text.stripChars_eq_self_iff _).mpr ⟨?_, ?_⟩)
    · intro c more begins
      rw [← Bool.not_eq_true]
      intro blank
      rw [blank_at_front reads first begins blank] at begins
      exact single ⟨c, blank, begins⟩
    · intro more c ends
      rw [← Bool.not_eq_true]
      intro blank
      rw [blank_at_end reads first ends blank] at ends
      exact single ⟨c, blank, ends⟩

end Reading

theorem trimmed_of_matchLine? {style : Style} {text payload : String}
    (found : matchLine? style text = some payload) :
    '\n' ∉ payload.toList ∧
      (strip payload = payload ∨ ∃ c, isBlank c = true ∧ payload.toList = [c]) := by
  obtain ⟨reading, reads, rfl, first⟩ := exists_first_reading found
  rw [String.toList_ofList, strip, String.toList_ofList]
  exact ⟨reads.oneLine, (reading.trimmed_payload reads first).imp_left (congrArg String.ofList)⟩

/-- A payload of one blank. -/
example : matchLine? .standard "// #-- " = some " " := by decide +kernel

end CommentOutline.Comment
