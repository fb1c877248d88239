import CommentOutline.Proofs.Html.Tags
import CommentOutline.Proofs.Outline.Path

set_option autoImplicit false

/-! Pages and what they show. Escaped text ends at the first mark of the markup behind it and is read
back from its entities, and the markup tells a childless node from a group and the end of a list
from one more item. So a page shows one title, one version and one outline only. -/

namespace CommentOutline.Html

open Outline (Node)

/-! ### Reading escaped text back -/

/-- The text that a reader sees for its escaped form. -/
def unescape : List Char → List Char
  | '&' :: 'a' :: 'm' :: 'p' :: ';' :: cs => '&' :: unescape cs
  | '&' :: 'l' :: 't' :: ';' :: cs => '<' :: unescape cs
  | '&' :: 'g' :: 't' :: ';' :: cs => '>' :: unescape cs
  | '&' :: '#' :: '3' :: '9' :: ';' :: cs => '\'' :: unescape cs
  | '&' :: '#' :: '3' :: '4' :: ';' :: cs => '"' :: unescape cs
  | c :: cs => c :: unescape cs
  | [] => []

theorem unescape_cons {c : Char} (plain : c ≠ '&') (cs : List Char) :
    unescape (c :: cs) = c :: unescape cs := by
  rw [unescape]
  all_goals
    rintro _ rfl
    exact absurd rfl plain

theorem unescape_escapeChar (c : Char) (cs : List Char) :
    unescape (escapeChar c ++ cs) = c :: unescape cs := by
  unfold escapeChar
  split
  · subst c
    rfl
  · rename_i plain
    split
    · subst c
      rfl
    · split
      · subst c
        rfl
      · split
        · subst c
          rfl
        · split
          · subst c
            rfl
          · exact unescape_cons plain cs

theorem unescape_escape (cs : List Char) : unescape (escape cs) = cs := by
  unfold escape
  induction cs with
  | nil => rfl
  | cons c cs ih => rw [List.flatMap_cons, unescape_escapeChar, ih]

theorem escape_injective : Function.Injective escape :=
  Function.LeftInverse.injective unescape_escape

/-! ### Markup and fields -/

variable {source source' : String} {pieces others : List Piece}

theorem markup_cancel
    (same : chars (.markup source :: pieces) = chars (.markup source :: others)) :
    chars pieces = chars others := by
  rw [chars_cons, chars_cons] at same
  exact List.append_cancel_left same

theorem markup_ne (apart : ¬ source.toList <+: source'.toList)
    (apart' : ¬ source'.toList <+: source.toList) :
    chars (.markup source :: pieces) ≠ chars (.markup source' :: others) := by
  rw [chars_cons, chars_cons]
  intro same
  have front := List.prefix_append source.toList (chars pieces)
  have front' := List.prefix_append source'.toList (chars others)
  rw [Piece.chars, Piece.chars] at same
  rw [same] at front
  exact (List.prefix_or_prefix_of_prefix front front').elim apart apart'

theorem exists_behind_mark {mark : Char} (pieces : List Piece)
    (begins : source.toList.head? = some mark) :
    ∃ behind, chars (.markup source :: pieces) = mark :: behind := by
  obtain ⟨behind, begun⟩ := List.head?_eq_some_iff.mp begins
  exact ⟨behind ++ chars pieces, by rw [chars_cons, Piece.chars, begun, List.cons_append]⟩

/-- A text goes on to the mark that the markup behind it begins with. -/
theorem text_cancel {content content' : String} {mark : Char} (special : mark ∈ marks)
    (ends : source.toList.head? = some mark) (ends' : source'.toList.head? = some mark)
    (same : chars (.text content :: .markup source :: pieces) =
      chars (.text content' :: .markup source' :: others)) :
    content = content' ∧ chars (.markup source :: pieces) = chars (.markup source' :: others) := by
  rw [chars_cons, chars_cons (.text content')] at same
  obtain ⟨behind, split⟩ := exists_behind_mark pieces ends
  obtain ⟨behind', split'⟩ := exists_behind_mark others ends'
  rw [split, split', Piece.chars, Piece.chars] at same
  obtain ⟨escaped, rest⟩ := Text.append_cons_cancel (notMem_escape special _)
    (notMem_escape special _) same
  exact ⟨String.toList_inj.mp (escape_injective escaped), by rw [split, split', rest]⟩

/-! ### Items -/

theorem opening_cancel {key key' : String} {line line' : Int}
    (ends : source.toList.head? = some '"') (ends' : source'.toList.head? = some '"')
    (same : chars (.markup "\n  <li data-key=\"" :: .text key :: .markup "\" data-line=\"" ::
        .text line.repr :: .markup source :: pieces) =
      chars (.markup "\n  <li data-key=\"" :: .text key' :: .markup "\" data-line=\"" ::
        .text line'.repr :: .markup source' :: others)) :
    key = key' ∧ line = line' ∧
      chars (.markup source :: pieces) = chars (.markup source' :: others) := by
  have quote : '"' ∈ marks := by decide
  obtain ⟨keys, same⟩ := text_cancel quote rfl rfl (markup_cancel same)
  obtain ⟨lines, rest⟩ := text_cancel quote ends ends' (markup_cancel same)
  exact ⟨keys, Outline.repr_inj lines, rest⟩

theorem labelPieces_cancel {label label' : String} {line line' : Int}
    (same : chars (labelPieces label line ++ pieces) = chars (labelPieces label' line' ++ others)) :
    label = label' ∧ chars pieces = chars others := by
  have bracket : '<' ∈ marks := by decide
  unfold labelPieces at same
  simp only [List.cons_append, List.nil_append] at same
  obtain ⟨labels, same⟩ := text_cancel bracket rfl rfl same
  obtain ⟨-, rest⟩ := text_cancel bracket rfl rfl (markup_cancel same)
  exact ⟨labels, markup_cancel rest⟩

theorem label_ne_summary {label : String} {line : Int} :
    chars (.markup "\">\n    " :: (labelPieces label line ++ pieces)) ≠
      chars (.markup "\">\n    <details open><summary>" :: others) := by
  have bracket : '<' ∈ marks := by decide
  have parted : chars (.markup "\">\n    <details open><summary>" :: others) =
      chars (.markup "\">\n    " :: .text "" :: .markup "<details open><summary>" :: others) := rfl
  rw [parted]
  intro same
  unfold labelPieces at same
  simp only [List.cons_append, List.nil_append] at same
  obtain ⟨-, rest⟩ := text_cancel bracket rfl rfl (markup_cancel same)
  exact markup_ne (by decide) (by decide) rest

theorem exists_itemPieces (node : Node) :
    ∃ rest, itemPieces node = .markup "\n  <li data-key=\"" :: rest := by
  obtain ⟨label, line, key, children⟩ := node
  cases children <;> exact ⟨_, rfl⟩

theorem end_ne_items {node : Node} {nodes : List Node} :
    chars (.markup "\n</ul>" :: pieces) ≠ chars (itemsPieces (node :: nodes) ++ others) := by
  obtain ⟨rest, begun⟩ := exists_itemPieces node
  rw [itemsPieces, begun]
  exact markup_ne (by decide) (by decide)

mutual

theorem itemPieces_cancel : (node other : Node) → (pieces others : List Piece) →
    chars (itemPieces node ++ pieces) = chars (itemPieces other ++ others) →
    node = other ∧ chars pieces = chars others
  | ⟨label, line, key, []⟩, ⟨label', line', key', []⟩, pieces, others, same => by
      simp only [itemPieces, List.append_assoc, List.cons_append, List.nil_append] at same
      obtain ⟨rfl, rfl, body⟩ := opening_cancel rfl rfl same
      obtain ⟨rfl, rest⟩ := labelPieces_cancel (markup_cancel body)
      exact ⟨rfl, markup_cancel rest⟩
  | ⟨label, line, key, []⟩, ⟨label', line', key', child :: children⟩, pieces, others, same => by
      simp only [itemPieces, List.append_assoc, List.cons_append, List.nil_append] at same
      exact absurd (opening_cancel rfl rfl same).2.2 label_ne_summary
  | ⟨label, line, key, child :: children⟩, ⟨label', line', key', []⟩, pieces, others, same => by
      simp only [itemPieces, List.append_assoc, List.cons_append, List.nil_append] at same
      exact absurd (opening_cancel rfl rfl same).2.2.symm label_ne_summary
  | ⟨label, line, key, child :: children⟩, ⟨label', line', key', child' :: children'⟩, pieces,
      others, same => by
      simp only [itemPieces, List.append_assoc, List.cons_append, List.nil_append] at same
      obtain ⟨rfl, rfl, body⟩ := opening_cancel rfl rfl same
      obtain ⟨rfl, summary⟩ := labelPieces_cancel (markup_cancel body)
      have below := markup_cancel (markup_cancel summary)
      obtain ⟨first, others⟩ := itemPieces_cancel child child' _ _ below
      obtain ⟨later, closed⟩ := itemsPieces_cancel children children' _ _ others
      rw [first, later]
      exact ⟨rfl, markup_cancel closed⟩

theorem itemsPieces_cancel : (nodes nodes' : List Node) → (pieces others : List Piece) →
    chars (itemsPieces nodes ++ .markup "\n</ul>" :: pieces) =
      chars (itemsPieces nodes' ++ .markup "\n</ul>" :: others) →
    nodes = nodes' ∧ chars pieces = chars others
  | [], [], _, _, same => ⟨rfl, markup_cancel same⟩
  | [], _ :: _, _, _, same => absurd same end_ne_items
  | _ :: _, [], _, _, same => absurd same.symm end_ne_items
  | node :: nodes, node' :: nodes', pieces, others, same => by
      rw [itemsPieces, itemsPieces, List.append_assoc, List.append_assoc] at same
      obtain ⟨first, later⟩ := itemPieces_cancel node node' _ _ same
      obtain ⟨others, rest⟩ := itemsPieces_cancel nodes nodes' _ _ later
      rw [first, others]
      exact ⟨rfl, rest⟩

end

/-! ### Pages -/

/-- The line below the heading has no mark of its own before its markup ends. -/
theorem subtitle_cancel {number number' version version' : String}
    (same : chars (.text number :: .markup " entries &middot; comment-explorer " ::
        .text version :: .markup "</p>\n\n" :: pieces) =
      chars (.text number' :: .markup " entries &middot; comment-explorer " ::
        .text version' :: .markup "</p>\n\n" :: others)) :
    (number = number' → version = version') ∧ chars pieces = chars others := by
  have plain : ∀ number version : String, '<' ∉ escape number.toList ++
      (" entries &middot; comment-explorer ".toList ++ escape version.toList) := by
    intro number version
    have bracket : '<' ∈ marks := by decide
    rw [List.mem_append, List.mem_append, not_or, not_or]
    exact ⟨notMem_escape bracket _, by decide, notMem_escape bracket _⟩
  have opened : "</p>\n\n".toList = '<' :: "/p>\n\n".toList := by decide
  simp only [chars_cons, Piece.chars, opened, List.cons_append] at same
  simp only [← List.append_assoc _ _ ('<' :: _)] at same
  obtain ⟨front, rest⟩ := Text.append_cons_cancel (plain _ _) (plain _ _) same
  refine ⟨?_, List.append_cancel_left rest⟩
  intro numbers
  rw [numbers] at front
  exact String.toList_inj.mp
    (escape_injective (List.append_cancel_left (List.append_cancel_left front)))

theorem outlinePieces_cancel {forest forest' : List Node}
    (same : chars (outlinePieces forest ++ [.markup "\n</body>\n</html>"]) =
      chars (outlinePieces forest' ++ [.markup "\n</body>\n</html>"])) : forest = forest' := by
  cases forest with
  | nil =>
      cases forest' with
      | nil => rfl
      | cons node' nodes' => exact absurd same (markup_ne (by decide) (by decide))
  | cons node nodes =>
      cases forest' with
      | nil => exact absurd same (markup_ne (by decide) (by decide))
      | cons node' nodes' =>
          unfold outlinePieces at same
          simp only [List.append_assoc, List.cons_append, List.nil_append] at same
          exact (itemsPieces_cancel _ _ _ _ (markup_cancel same)).1

/-- Two pages are the same exactly when they show the same title, version and outline, with the
nodes in the same places and with the same labels, lines and keys. -/
theorem render_eq_render_iff (title version title' version' : String) (forest forest' : List Node) :
    render title version forest = render title' version' forest' ↔
      title = title' ∧ version = version' ∧ forest = forest' := by
  constructor
  · intro same
    have bracket : '<' ∈ marks := by decide
    have written := String.ofList_injective same
    unfold pagePieces at written
    simp only [List.cons_append, List.nil_append] at written
    obtain ⟨titles, head⟩ := text_cancel bracket rfl rfl (markup_cancel written)
    have heading := markup_cancel (markup_cancel (markup_cancel head))
    obtain ⟨-, body⟩ := text_cancel bracket rfl rfl heading
    obtain ⟨versions, outline⟩ := subtitle_cancel (markup_cancel body)
    have forests := outlinePieces_cancel outline
    exact ⟨titles, versions (by rw [forests]), forests⟩
  · rintro ⟨rfl, rfl, rfl⟩
    rfl

end CommentOutline.Html
