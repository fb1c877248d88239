import CommentOutline.Html.Page
import CommentOutline.Outline.Export
import CommentOutline.Outline.Rendering

set_option autoImplicit false

/-! The formats in which an outline can be written. -/

namespace CommentOutline

def version : String := "0.3.0"

inductive Format where
  | text
  | json
  | markdown
  | html
deriving Repr, DecidableEq

namespace Format

def all : List Format := [.text, .json, .markdown, .html]

def name : Format → String
  | .text => "text"
  | .json => "json"
  | .markdown => "markdown"
  | .html => "html"

def ofName? (name : String) : Option Format := all.find? fun format => format.name == name

/-- An outline in a format. Only JSON, which is ASCII, writes halves of surrogate pairs out. -/
def render (format : Format) (standIns : Text.StandIns) (title : String)
    (forest : List Outline.Node) : String :=
  match format with
  | .text => Outline.renderText forest
  | .json =>
      Json.renderBy (fun c => (standIns.point c).units) (.ofIndent (some 2))
        (Outline.forestValue forest)
  | .markdown => Outline.renderMarkdown forest
  | .html => Html.render title version forest

end Format

end CommentOutline
