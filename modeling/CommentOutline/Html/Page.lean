import CommentOutline.Outline.Node

set_option autoImplicit false

/-! An outline as an HTML page. The page is put together from markup, which is written as it is,
and text, in which the five characters with a meaning in HTML are replaced. -/

namespace CommentOutline.Html

open Outline (Node)

inductive Piece where
  | markup (source : String)
  | text (content : String)
deriving Repr, DecidableEq

def escapeChar (c : Char) : List Char :=
  if c = '&' then ['&', 'a', 'm', 'p', ';']
  else if c = '<' then ['&', 'l', 't', ';']
  else if c = '>' then ['&', 'g', 't', ';']
  else if c = '\'' then ['&', '#', '3', '9', ';']
  else if c = '"' then ['&', '#', '3', '4', ';']
  else [c]

def escape (cs : List Char) : List Char := cs.flatMap escapeChar

def Piece.chars : Piece → List Char
  | .markup source => source.toList
  | .text content => escape content.toList

def chars (pieces : List Piece) : List Char := pieces.flatMap Piece.chars

def labelPieces (label : String) (line : Int) : List Piece :=
  [.text label, .markup "<span class=\"line\">line ", .text (line + 1).repr, .markup "</span>"]

mutual

def itemPieces : Node → List Piece
  | ⟨label, line, key, []⟩ =>
      [.markup "\n  <li data-key=\"", .text key, .markup "\" data-line=\"", .text line.repr,
        .markup "\">\n    "] ++
        labelPieces label line ++ [.markup "\n  </li>"]
  | ⟨label, line, key, child :: children⟩ =>
      [.markup "\n  <li data-key=\"", .text key, .markup "\" data-line=\"", .text line.repr,
        .markup "\">\n    <details open><summary>"] ++
        labelPieces label line ++
        [.markup "</summary>\n    ", .markup "<ul class=\"outline\">"] ++
        itemPieces child ++ itemsPieces children ++
        [.markup "\n</ul>", .markup "\n    </details>\n  </li>"]

def itemsPieces : List Node → List Piece
  | [] => []
  | node :: nodes => itemPieces node ++ itemsPieces nodes

end

def styleSheet : String :=
  "<style>\n" ++
    "  body \x7b font-family: sans-serif; margin: 2em; \x7d\n" ++
    "  ul.outline \x7b list-style: none; padding-left: 1.2em; \x7d\n" ++
    "  .line \x7b color: #888; font-size: 0.85em; margin-left: 0.5em; \x7d\n" ++
    "  summary \x7b cursor: pointer; \x7d\n" ++
    "</style>\n"

def outlinePieces (forest : List Node) : List Piece :=
  match forest with
  | [] => [.markup "<p>No annotations found.</p>"]
  | _ => [.markup "<ul class=\"outline\">"] ++ itemsPieces forest ++ [.markup "\n</ul>"]

def pagePieces (title version : String) (forest : List Node) : List Piece :=
  [.markup "<!DOCTYPE html>\n<html lang=\"en\">\n<head>\n<meta charset=\"utf-8\">\n<title>",
    .text title, .markup "</title>\n", .markup styleSheet, .markup "</head>\n<body>\n<h1>",
    .text title, .markup "</h1>\n<p class=\"meta\">", .text (Outline.count forest).repr,
    .markup " entries &middot; comment-explorer ", .text version, .markup "</p>\n\n"] ++
    outlinePieces forest ++ [.markup "\n</body>\n</html>"]

def render (title version : String) (forest : List Node) : String :=
  String.ofList (chars (pagePieces title version forest))

end CommentOutline.Html
