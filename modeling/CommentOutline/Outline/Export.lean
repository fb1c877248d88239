import CommentOutline.Json.Writer
import CommentOutline.Outline.Node

set_option autoImplicit false

/-! An outline as data: every node a table of its label, line, key and children. -/

namespace CommentOutline.Outline

open Config (Value)

mutual

def toValue : Node → Value
  | ⟨label, line, key, children⟩ =>
      .table [("label", .text label), ("line", .int line), ("key", .text key),
        ("children", .list (toValues children))]

def toValues : List Node → List Value
  | [] => []
  | node :: nodes => toValue node :: toValues nodes

end

def forestValue (forest : List Node) : Value :=
  .table [("roots", .list (toValues forest)), ("node_count", .int (count forest))]

def renderJson (indent : Option Int) (forest : List Node) : String :=
  Json.render (.ofIndent indent) (forestValue forest)

end CommentOutline.Outline
