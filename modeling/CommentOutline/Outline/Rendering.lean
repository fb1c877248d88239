import CommentOutline.Outline.Node
import CommentOutline.Text.Lines

set_option autoImplicit false

/-! An outline as text to read: one line for each node, indented by two blanks for each level.
Lines of the source are counted from one here. -/

namespace CommentOutline.Outline

mutual

def leveled (depth : Nat) : Node → List (Nat × Brief)
  | ⟨label, line, key, children⟩ => (depth, ⟨label, line, key⟩) :: leveledAll (depth + 1) children

def leveledAll (depth : Nat) : List Node → List (Nat × Brief)
  | [] => []
  | node :: nodes => leveled depth node ++ leveledAll depth nodes

end

def indent (depth : Nat) : List Char := List.replicate (2 * depth) ' '

def plainLine (depth : Nat) (node : Brief) : List Char :=
  indent depth ++ node.label.toList ++ " (line ".toList ++ (node.line + 1).repr.toList ++ ")".toList

def bulletLine (depth : Nat) (node : Brief) : List Char :=
  indent depth ++ "- ".toList ++ node.label.toList ++ " (L".toList ++ (node.line + 1).repr.toList ++
    ")".toList

def renderText (forest : List Node) : String :=
  String.ofList (Text.joinLines ((leveledAll 0 forest).map fun row => plainLine row.1 row.2))

def renderMarkdown (forest : List Node) : String :=
  String.ofList (Text.joinLines ((leveledAll 0 forest).map fun row => bulletLine row.1 row.2))

end CommentOutline.Outline
