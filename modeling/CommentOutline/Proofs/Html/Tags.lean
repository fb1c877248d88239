import CommentOutline.Html.Page
import CommentOutline.Text.Split

set_option autoImplicit false

/-! The tags of a page. They are read off its characters alone: a tag goes from a `<` to the next
`>`, blanks outside quotes part its words, and a word behind the name is an attribute. Escaped text
holds neither brackets nor quotes, so it never begins or ends a tag or a quoted value, and the tags
of a page are those of its markup. -/

namespace CommentOutline.Html

open Outline (Node)
open Text (extendFirst)

/-! ### Reading tags -/

/-- What stands behind every `<` up to the next `>`. -/
def tagTexts : List Char → List (List Char)
  | [] => []
  | c :: cs => if c = '<' then cs.takeWhile (fun d => d ≠ '>') :: tagTexts cs else tagTexts cs

inductive AttributeValue where
  | none
  | bare (content : String)
  | quoted (mark : Char) (content : String)
deriving Repr, DecidableEq

structure Attribute where
  name : String
  value : AttributeValue
deriving Repr, DecidableEq

structure Tag where
  name : String
  attributes : List Attribute
deriving Repr, DecidableEq

def isGap (c : Char) : Bool := c = ' ' || c = '\t' || c = '\n' || c = '\r' || c = '\x0c'

def isQuote (c : Char) : Bool := c = '"' || c = '\''

/-- The words of a tag. The first argument is the quotation mark that is open. -/
def words : (opened : Option Char) → List Char → List (List Char)
  | _, [] => [[]]
  | none, c :: cs =>
      if isGap c then [] :: words none cs
      else extendFirst c (words (if isQuote c then some c else none) cs)
  | some mark, c :: cs => extendFirst c (words (if c = mark then none else some mark) cs)

def readValue : List Char → AttributeValue
  | '=' :: mark :: rest =>
      if isQuote mark && rest.getLast? == some mark then
        .quoted mark (String.ofList rest.dropLast)
      else .bare (String.ofList (mark :: rest))
  | '=' :: [] => .bare ""
  | _ => .none

def readAttribute (word : List Char) : Attribute where
  name := String.ofList (word.takeWhile fun c => c ≠ '=')
  value := readValue (word.dropWhile fun c => c ≠ '=')

def readTag (source : List Char) : Tag :=
  match (words none source).filter fun word => !word.isEmpty with
  | [] => ⟨"", []⟩
  | name :: attributes => ⟨String.ofList name, attributes.map readAttribute⟩

def tags (cs : List Char) : List Tag := (tagTexts cs).map readTag

/-! ### Text and closed markup -/

theorem tags_text {cs : List Char} (absent : '<' ∉ cs) (rest : List Char) :
    tags (cs ++ rest) = tags rest := by
  induction cs with
  | nil => rfl
  | cons c cs ih =>
      rw [List.mem_cons, not_or] at absent
      rw [← ih absent.2, tags, List.cons_append, tagTexts, if_neg (Ne.symm absent.1), tags]

/-- Every `<` has a `>` behind it. -/
def Closed : List Char → Prop
  | [] => True
  | c :: cs => (c = '<' → '>' ∈ cs) ∧ Closed cs

instance decidableClosed : (cs : List Char) → Decidable (Closed cs)
  | [] => inferInstanceAs (Decidable True)
  | c :: cs =>
      have := decidableClosed cs
      inferInstanceAs (Decidable ((c = '<' → '>' ∈ cs) ∧ Closed cs))

theorem takeWhile_append_of_mem {cs : List Char} {mark : Char} (inside : mark ∈ cs)
    (rest : List Char) :
    (cs ++ rest).takeWhile (fun c => c ≠ mark) = cs.takeWhile fun c => c ≠ mark := by
  induction cs with
  | nil => cases inside
  | cons c cs ih =>
      by_cases same : c = mark
      · simp [same]
      · have later := (List.mem_cons.mp inside).resolve_left (Ne.symm same)
        rw [List.cons_append, List.takeWhile_cons_of_pos (by simp [same]), ih later,
          List.takeWhile_cons_of_pos (by simp [same])]

theorem tags_closed {cs : List Char} (closed : Closed cs) (rest : List Char) :
    tags (cs ++ rest) = tags cs ++ tags rest := by
  induction cs with
  | nil => rfl
  | cons c cs ih =>
      have later := ih closed.2
      unfold tags at later ⊢
      by_cases opens : c = '<'
      · rw [List.cons_append, tagTexts, if_pos opens, takeWhile_append_of_mem (closed.1 opens),
          tagTexts, if_pos opens, List.map_cons, later, List.map_cons, List.cons_append]
      · rw [List.cons_append, tagTexts, if_neg opens, later, tagTexts, if_neg opens]

/-! ### Escaped text -/

/-- The brackets of tags and the quotation marks of values. -/
def marks : List Char := ['<', '>', '"', '\'']

def entities : List (List Char) :=
  ["&amp;".toList, "&lt;".toList, "&gt;".toList, "&#39;".toList, "&#34;".toList]

theorem escapeChar_cases (c : Char) :
    escapeChar c ∈ entities ∨ escapeChar c = [c] ∧ c ∉ marks := by
  unfold escapeChar
  split
  · exact Or.inl (by decide)
  · split
    · exact Or.inl (by decide)
    · split
      · exact Or.inl (by decide)
      · split
        · exact Or.inl (by decide)
        · split
          · exact Or.inl (by decide)
          · refine Or.inr ⟨rfl, ?_⟩
            simp only [marks, List.mem_cons, List.not_mem_nil, or_false, not_or]
            exact ⟨by assumption, by assumption, by assumption, by assumption⟩

theorem notMem_escape {mark : Char} (special : mark ∈ marks) (cs : List Char) :
    mark ∉ escape cs := by
  have clear : (entities.all fun entity => marks.all fun mark => !entity.contains mark) = true := by
    decide
  intro member
  obtain ⟨c, -, inside⟩ := List.mem_flatMap.mp member
  rcases escapeChar_cases c with entity | ⟨same, plain⟩
  · have absent := List.all_eq_true.mp (List.all_eq_true.mp clear _ entity) mark special
    rw [List.contains_iff_mem.mpr inside] at absent
    cases absent
  · rw [same] at inside
    rw [List.mem_singleton.mp inside] at special
    exact plain special

theorem tags_escape (cs rest : List Char) : tags (escape cs ++ rest) = tags rest :=
  tags_text (notMem_escape (by decide) cs) rest

/-! ### Quoted values -/

/-- Characters that neither part words nor open a value. -/
def Solid (cs : List Char) : Prop := ∀ c ∈ cs, isGap c = false ∧ isQuote c = false

instance (cs : List Char) : Decidable (Solid cs) := List.decidableBAll _ cs

theorem words_solid {lead : List Char} (solid : Solid lead) {rest first : List Char}
    {more : List (List Char)} (behind : words none rest = first :: more) :
    words none (lead ++ rest) = (lead ++ first) :: more := by
  induction lead with
  | nil => exact behind
  | cons c lead ih =>
      obtain ⟨⟨gap, quote⟩, later⟩ := List.forall_mem_cons.mp solid
      rw [List.cons_append, words, gap, if_neg Bool.false_ne_true, quote,
        if_neg Bool.false_ne_true, ih later, extendFirst, List.cons_append]

theorem words_word {lead : List Char} (solid : Solid lead) (rest : List Char) :
    words none (lead ++ ' ' :: rest) = lead :: words none rest := by
  have parted : words none (' ' :: rest) = [] :: words none rest := rfl
  rw [words_solid solid parted, List.append_nil]

/-- A value goes on to its quotation mark, whatever is in it. -/
theorem words_value {mark : Char} {cs : List Char} (absent : mark ∉ cs) {rest first : List Char}
    {more : List (List Char)} (behind : words none rest = first :: more) :
    words (some mark) (cs ++ mark :: rest) = (cs ++ mark :: first) :: more := by
  induction cs with
  | nil => rw [List.nil_append, words, if_pos rfl, behind, extendFirst, List.nil_append]
  | cons c cs ih =>
      rw [List.mem_cons, not_or] at absent
      rw [List.cons_append, words, if_neg (Ne.symm absent.1), ih absent.2, extendFirst,
        List.cons_append]

/-- An attribute as it is written around an escaped value. -/
def written (lead value : String) : List Char :=
  lead.toList ++ '"' :: (escape value.toList ++ ['"'])

theorem words_written {lead : String} (solid : Solid lead.toList) (value : String)
    {rest : List Char} {more : List (List Char)} (behind : words none rest = [] :: more) :
    words none (written lead value ++ rest) = written lead value :: more := by
  have closed := words_value (notMem_escape (by decide : '"' ∈ marks) value.toList) behind
  have opened : words none ('"' :: (escape value.toList ++ '"' :: rest)) =
      ('"' :: (escape value.toList ++ '"' :: [])) :: more := by
    have quote : words none ('"' :: (escape value.toList ++ '"' :: rest)) =
        extendFirst '"' (words (some '"') (escape value.toList ++ '"' :: rest)) := rfl
    rw [quote, closed, extendFirst]
  have whole := words_solid solid opened
  simp only [written, List.append_assoc, List.cons_append, List.nil_append] at whole ⊢
  exact whole

theorem readValue_quoted (cs : List Char) :
    readValue ('=' :: '"' :: (cs ++ ['"'])) = .quoted '"' (String.ofList cs) := by
  have closes : (isQuote '"' && (cs ++ ['"']).getLast? == some '"') = true := by
    rw [List.getLast?_concat]
    rfl
  rw [readValue, if_pos closes, List.dropLast_concat]

def itemSource (key line : String) : List Char :=
  "li".toList ++ ' ' :: (written "data-key=" key ++ ' ' :: written "data-line=" line)

def itemTag (key line : String) : Tag :=
  ⟨"li", [⟨"data-key", .quoted '"' (String.ofList (escape key.toList))⟩,
    ⟨"data-line", .quoted '"' (String.ofList (escape line.toList))⟩]⟩

theorem words_itemSource (key line : String) :
    words none (itemSource key line) =
      ["li".toList, written "data-key=" key, written "data-line=" line] := by
  have last := words_written (by decide : Solid "data-line=".toList) line
    (rfl : words none [] = [[]])
  rw [List.append_nil] at last
  have behind : words none (' ' :: written "data-line=" line) =
      [] :: words none (written "data-line=" line) := rfl
  rw [last] at behind
  rw [itemSource, words_word (by decide),
    words_written (by decide : Solid "data-key=".toList) key behind]

theorem readTag_itemSource (key line : String) : readTag (itemSource key line) = itemTag key line := by
  have named : ∀ value : String,
      readAttribute (written "data-key=" value) =
          ⟨"data-key", .quoted '"' (String.ofList (escape value.toList))⟩ ∧
        readAttribute (written "data-line=" value) =
          ⟨"data-line", .quoted '"' (String.ofList (escape value.toList))⟩ := by
    intro value
    rw [← readValue_quoted]
    exact ⟨rfl, rfl⟩
  rw [readTag, words_itemSource]
  change Tag.mk "li" [readAttribute _, readAttribute _] = _
  rw [(named key).1, (named line).2]
  rfl

/-! ### Tags of a page -/

def labelTags : List Tag := [⟨"span", [⟨"class", .quoted '"' "line"⟩]⟩, ⟨"/span", []⟩]

def listTag : Tag := ⟨"ul", [⟨"class", .quoted '"' "outline"⟩]⟩

mutual

def itemTags : Node → List Tag
  | ⟨_, line, key, []⟩ => [itemTag key line.repr] ++ labelTags ++ [⟨"/li", []⟩]
  | ⟨_, line, key, child :: children⟩ =>
      [itemTag key line.repr, ⟨"details", [⟨"open", .none⟩]⟩, ⟨"summary", []⟩] ++ labelTags ++
        [⟨"/summary", []⟩, listTag] ++ itemTags child ++ itemsTags children ++
        [⟨"/ul", []⟩, ⟨"/details", []⟩, ⟨"/li", []⟩]

def itemsTags : List Node → List Tag
  | [] => []
  | node :: nodes => itemTags node ++ itemsTags nodes

end

def outlineTags (forest : List Node) : List Tag :=
  match forest with
  | [] => [⟨"p", []⟩, ⟨"/p", []⟩]
  | _ => listTag :: itemsTags forest ++ [⟨"/ul", []⟩]

def pageTags (forest : List Node) : List Tag :=
  [⟨"!DOCTYPE", [⟨"html", .none⟩]⟩, ⟨"html", [⟨"lang", .quoted '"' "en"⟩]⟩, ⟨"head", []⟩,
    ⟨"meta", [⟨"charset", .quoted '"' "utf-8"⟩]⟩, ⟨"title", []⟩, ⟨"/title", []⟩, ⟨"style", []⟩,
    ⟨"/style", []⟩, ⟨"/head", []⟩, ⟨"body", []⟩, ⟨"h1", []⟩, ⟨"/h1", []⟩,
    ⟨"p", [⟨"class", .quoted '"' "meta"⟩]⟩, ⟨"/p", []⟩] ++
    outlineTags forest ++ [⟨"/body", []⟩, ⟨"/html", []⟩]

theorem chars_cons (piece : Piece) (pieces : List Piece) :
    chars (piece :: pieces) = piece.chars ++ chars pieces :=
  List.flatMap_cons

theorem tags_markup (source : String) (found : List Tag)
    (read : Closed source.toList ∧ tags source.toList = found) (pieces : List Piece)
    (rest : List Char) :
    tags (chars (.markup source :: pieces) ++ rest) = found ++ tags (chars pieces ++ rest) := by
  rw [chars_cons, Piece.chars, List.append_assoc, tags_closed read.1, read.2]

theorem tags_textPiece (content : String) (pieces : List Piece) (rest : List Char) :
    tags (chars (.text content :: pieces) ++ rest) = tags (chars pieces ++ rest) := by
  rw [chars_cons, Piece.chars, List.append_assoc, tags_escape]

theorem tags_tag {source : List Char} (opens : '<' ∉ source) (closes : '>' ∉ source)
    (rest : List Char) :
    tags ('<' :: (source ++ '>' :: rest)) = readTag source :: tags rest := by
  have whole : (source ++ '>' :: rest).takeWhile (fun d => d ≠ '>') = source := by
    rw [List.takeWhile_append_of_pos, List.takeWhile_cons_of_neg (by decide), List.append_nil]
    intro c inside
    exact decide_eq_true fun same => closes (same ▸ inside)
  have behind : tags ('>' :: rest) = tags rest := @tags_text ['>'] (by decide) rest
  rw [tags, tagTexts, if_pos rfl, whole, List.map_cons, ← tags, tags_text opens, behind]

theorem notMem_itemSource {mark : Char} (bracket : mark = '<' ∨ mark = '>') (key line : String) :
    mark ∉ itemSource key line := by
  have special : mark ∈ marks := by
    rcases bracket with rfl | rfl
    all_goals decide
  have name : mark ∉ "li".toList ∧ mark ∉ "data-key=".toList ∧ mark ∉ "data-line=".toList ∧
      mark ≠ ' ' ∧ mark ≠ '"' := by
    rcases bracket with rfl | rfl
    all_goals decide
  simp only [itemSource, written, List.mem_append, List.mem_cons, List.not_mem_nil, or_false,
    notMem_escape special, name, not_false_eq_true]

theorem tags_opening (key line source : String) (behind : List Char) (found : List Tag)
    (begins : source.toList = '"' :: '>' :: behind) (read : Closed behind ∧ tags behind = found)
    (pieces : List Piece) (rest : List Char) :
    tags (chars (.markup "\n  <li data-key=\"" :: .text key :: .markup "\" data-line=\"" ::
      .text line :: .markup source :: pieces) ++ rest) =
        itemTag key line :: (found ++ tags (chars pieces ++ rest)) := by
  have front : "\n  <li data-key=\"".toList = "\n  ".toList ++
      '<' :: ("li".toList ++ ' ' :: ("data-key=".toList ++ ['"'])) := by decide
  have middle : "\" data-line=\"".toList = '"' :: ' ' :: ("data-line=".toList ++ ['"']) := by
    decide
  have whole : chars (.markup "\n  <li data-key=\"" :: .text key :: .markup "\" data-line=\"" ::
      .text line :: .markup source :: pieces) ++ rest =
        "\n  ".toList ++ '<' :: (itemSource key line ++ '>' :: (behind ++ (chars pieces ++ rest))) := by
    simp only [chars_cons, Piece.chars, front, middle, begins, itemSource, written,
      List.append_assoc, List.cons_append, List.nil_append]
  rw [whole, tags_text (by decide), tags_tag (notMem_itemSource (Or.inl rfl) key line)
    (notMem_itemSource (Or.inr rfl) key line), readTag_itemSource, tags_closed read.1, read.2]

theorem tags_labelPieces (label : String) (line : Int) (pieces : List Piece) (rest : List Char) :
    tags (chars (labelPieces label line ++ pieces) ++ rest) =
      labelTags ++ tags (chars pieces ++ rest) := by
  simp only [labelPieces, List.cons_append, List.nil_append]
  rw [tags_textPiece,
    tags_markup "<span class=\"line\">line " [⟨"span", [⟨"class", .quoted '"' "line"⟩]⟩] (by decide),
    tags_textPiece, tags_markup "</span>" [⟨"/span", []⟩] (by decide)]
  rfl

mutual

theorem tags_itemPieces : (node : Node) → (pieces : List Piece) → (rest : List Char) →
    tags (chars (itemPieces node ++ pieces) ++ rest) =
      itemTags node ++ tags (chars pieces ++ rest)
  | ⟨label, line, key, []⟩, pieces, rest => by
      simp only [itemPieces, itemTags, List.append_assoc, List.cons_append, List.nil_append]
      rw [tags_opening key line.repr "\">\n    " "\n    ".toList [] (by decide) (by decide),
        tags_labelPieces, tags_markup "\n  </li>" [⟨"/li", []⟩] (by decide)]
      rfl
  | ⟨label, line, key, child :: children⟩, pieces, rest => by
      simp only [itemPieces, itemTags, List.append_assoc, List.cons_append, List.nil_append]
      rw [tags_opening key line.repr "\">\n    <details open><summary>"
          "\n    <details open><summary>".toList [⟨"details", [⟨"open", .none⟩]⟩, ⟨"summary", []⟩]
          (by decide) (by decide),
        tags_labelPieces, tags_markup "</summary>\n    " [⟨"/summary", []⟩] (by decide),
        tags_markup "<ul class=\"outline\">" [listTag] (by decide), tags_itemPieces child,
        tags_itemsPieces children, tags_markup "\n</ul>" [⟨"/ul", []⟩] (by decide),
        tags_markup "\n    </details>\n  </li>" [⟨"/details", []⟩, ⟨"/li", []⟩] (by decide)]
      rfl

theorem tags_itemsPieces : (nodes : List Node) → (pieces : List Piece) → (rest : List Char) →
    tags (chars (itemsPieces nodes ++ pieces) ++ rest) =
      itemsTags nodes ++ tags (chars pieces ++ rest)
  | [], _, _ => rfl
  | node :: nodes, pieces, rest => by
      rw [itemsPieces, List.append_assoc, tags_itemPieces node, tags_itemsPieces nodes, itemsTags,
        List.append_assoc]

end

theorem tags_outlinePieces (forest : List Node) (pieces : List Piece) (rest : List Char) :
    tags (chars (outlinePieces forest ++ pieces) ++ rest) =
      outlineTags forest ++ tags (chars pieces ++ rest) := by
  cases forest with
  | nil =>
      exact tags_markup "<p>No annotations found.</p>" [⟨"p", []⟩, ⟨"/p", []⟩] (by decide) pieces rest
  | cons node nodes =>
      simp only [outlinePieces, outlineTags, List.append_assoc, List.cons_append, List.nil_append]
      rw [tags_markup "<ul class=\"outline\">" [listTag] (by decide), tags_itemsPieces,
        tags_markup "\n</ul>" [⟨"/ul", []⟩] (by decide)]
      rfl

private theorem tags_styleSheet : Closed styleSheet.toList ∧
    tags styleSheet.toList = [⟨"style", []⟩, ⟨"/style", []⟩] := by
  simp only [styleSheet, String.toList_append]
  decide +kernel

/-- The tags of a page are those of its markup; the outline gives the items and the values. -/
theorem tags_render (title version : String) (forest : List Node) :
    tags (render title version forest).toList = pageTags forest := by
  have whole : (render title version forest).toList =
      chars (pagePieces title version forest) ++ [] := by
    rw [render, String.toList_ofList, List.append_nil]
  rw [whole, pagePieces]
  simp only [List.cons_append, List.nil_append]
  rw [tags_markup "<!DOCTYPE html>\n<html lang=\"en\">\n<head>\n<meta charset=\"utf-8\">\n<title>"
      [⟨"!DOCTYPE", [⟨"html", .none⟩]⟩, ⟨"html", [⟨"lang", .quoted '"' "en"⟩]⟩, ⟨"head", []⟩,
        ⟨"meta", [⟨"charset", .quoted '"' "utf-8"⟩]⟩, ⟨"title", []⟩] (by decide +kernel),
    tags_textPiece, tags_markup "</title>\n" [⟨"/title", []⟩] (by decide),
    tags_markup styleSheet _ tags_styleSheet,
    tags_markup "</head>\n<body>\n<h1>" [⟨"/head", []⟩, ⟨"body", []⟩, ⟨"h1", []⟩] (by decide),
    tags_textPiece, tags_markup "</h1>\n<p class=\"meta\">"
      [⟨"/h1", []⟩, ⟨"p", [⟨"class", .quoted '"' "meta"⟩]⟩] (by decide),
    tags_textPiece, tags_markup " entries &middot; comment-explorer " [] (by decide),
    tags_textPiece, tags_markup "</p>\n\n" [⟨"/p", []⟩] (by decide), tags_outlinePieces,
    tags_markup "\n</body>\n</html>" [⟨"/body", []⟩, ⟨"/html", []⟩] (by decide)]
  simp only [pageTags, List.cons_append, List.nil_append]
  rfl

/-! ### Pages of one shape -/

/-- How nodes are nested, with nothing that they say. -/
inductive Shape where
  | node (below : List Shape)

mutual

def shape : Node → Shape
  | ⟨_, _, _, children⟩ => .node (shapes children)

def shapes : List Node → List Shape
  | [] => []
  | node :: nodes => shape node :: shapes nodes

end

/-- The attribute with nothing between its quotes, if it is the key or the line of an item. -/
def Attribute.blank (given : Attribute) : Attribute :=
  match given.value with
  | .quoted mark _ =>
      if given.name = "data-key" ∨ given.name = "data-line" then ⟨given.name, .quoted mark ""⟩
      else given
  | _ => given

def Tag.blank (tag : Tag) : Tag := ⟨tag.name, tag.attributes.map Attribute.blank⟩

theorem blank_itemTag (key line : String) : (itemTag key line).blank =
    ⟨"li", [⟨"data-key", .quoted '"' ""⟩, ⟨"data-line", .quoted '"' ""⟩]⟩ :=
  rfl

mutual

theorem map_blank_itemTags : (node other : Node) → shape node = shape other →
    (itemTags node).map Tag.blank = (itemTags other).map Tag.blank
  | ⟨_, _, _, []⟩, ⟨_, _, _, []⟩, _ => by
      simp only [itemTags, List.map_append, List.map_cons, List.map_nil, blank_itemTag]
  | ⟨_, _, _, []⟩, ⟨_, _, _, _ :: _⟩, alike => by
      simp only [shape, shapes, Shape.node.injEq, reduceCtorEq] at alike
  | ⟨_, _, _, _ :: _⟩, ⟨_, _, _, []⟩, alike => by
      simp only [shape, shapes, Shape.node.injEq, reduceCtorEq] at alike
  | ⟨_, _, _, child :: children⟩, ⟨_, _, _, child' :: children'⟩, alike => by
      simp only [shape, shapes, Shape.node.injEq, List.cons.injEq] at alike
      simp only [itemTags, List.map_append, List.map_cons, List.map_nil, blank_itemTag,
        map_blank_itemTags child child' alike.1, map_blank_itemsTags children children' alike.2]

theorem map_blank_itemsTags : (nodes others : List Node) → shapes nodes = shapes others →
    (itemsTags nodes).map Tag.blank = (itemsTags others).map Tag.blank
  | [], [], _ => rfl
  | [], _ :: _, alike => by simp only [shapes, reduceCtorEq] at alike
  | _ :: _, [], alike => by simp only [shapes, reduceCtorEq] at alike
  | node :: nodes, other :: others, alike => by
      simp only [shapes, List.cons.injEq] at alike
      simp only [itemsTags, List.map_append, map_blank_itemTags node other alike.1,
        map_blank_itemsTags nodes others alike.2]

end

theorem map_blank_pageTags {forest forest' : List Node} (alike : shapes forest = shapes forest') :
    (pageTags forest).map Tag.blank = (pageTags forest').map Tag.blank := by
  have outline : (outlineTags forest).map Tag.blank = (outlineTags forest').map Tag.blank := by
    have items := map_blank_itemsTags forest forest' alike
    cases forest with
    | nil =>
        cases forest' with
        | nil => rfl
        | cons node nodes => simp only [shapes, reduceCtorEq] at alike
    | cons node nodes =>
        cases forest' with
        | nil => simp only [shapes, reduceCtorEq] at alike
        | cons other others => simp only [outlineTags, List.map_append, List.map_cons, items]
  simp only [pageTags, List.map_append, outline]

/-- Pages of outlines with one shape have the same tags in the same order, with the same attributes,
whatever the labels, keys, lines, titles and versions are. They differ only between the quotes of
keys and lines. -/
theorem tags_render_alike (title version title' version' : String) (forest forest' : List Node)
    (alike : shapes forest = shapes forest') :
    (tags (render title version forest).toList).map Tag.blank =
      (tags (render title' version' forest').toList).map Tag.blank := by
  rw [tags_render, tags_render]
  exact map_blank_pageTags alike

/-- A group whose label closes its item, and a key that closes its quotes. -/
theorem tags_render_alike_hostile :
    shapes [⟨"</li><script>", 1, "\" onclick=\"'", [⟨"<a b=c>", -4, "> <", []⟩]⟩] =
      shapes [⟨"G", 0, "G", [⟨"x", 0, "G :: x :: line number 0", []⟩]⟩] ∧
    (tags (render "</title>" "<!--"
        [⟨"</li><script>", 1, "\" onclick=\"'", [⟨"<a b=c>", -4, "> <", []⟩]⟩]).toList).map Tag.blank =
      (tags (render "T" "0.3.0"
        [⟨"G", 0, "G", [⟨"x", 0, "G :: x :: line number 0", []⟩]⟩]).toList).map Tag.blank :=
  ⟨rfl, tags_render_alike _ _ _ _ _ _ rfl⟩

end CommentOutline.Html
