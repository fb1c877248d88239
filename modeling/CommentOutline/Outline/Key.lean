set_option autoImplicit false

/-! Keys: the identity of an outline node, assembled from the labels on its path. -/

namespace CommentOutline.Outline

def keyJoiner : String := " :: "

def leafTag : String := "line number "

/-- The key of a group under the group with the given key. -/
def containerKey (parent label : String) : String := parent ++ keyJoiner ++ label

/-- The key of an entry: the key that a group in its place would have, and its line. -/
def leafKey (parent label : String) (line : Int) : String :=
  containerKey parent label ++ keyJoiner ++ leafTag ++ line.repr

end CommentOutline.Outline
