import CommentOutline.Config.Value

set_option autoImplicit false

/-! Layering one configuration over another. Where both layers have a table under a key the tables
are merged; any other value of the upper layer replaces what is below. -/

namespace CommentOutline.Config

mutual

def mergeValue (below : Option Value) : Value → Value
  | .table entries =>
      match below with
      | some (.table base) => .table (merge base entries)
      | _ => .table entries
  | value => value

/-- A table laid over another one. New keys follow the old ones. -/
def merge (base : Table) : (layer : List (String × Value)) → Table
  | [] => base
  | (key, value) :: rest =>
      merge (base.put key (mergeValue (base.get? key) value)) rest

end

end CommentOutline.Config
