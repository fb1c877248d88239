import Mathlib.Data.List.Nodup

set_option autoImplicit false

/-! Annotations in the order of their lines, as a scan lists them. No two of them share a line, so a
line tells which annotation it is. -/

namespace CommentOutline.Outline

def Ascending (pairs : List (String × Int)) : Prop :=
  pairs.Pairwise fun first second => first.2 < second.2

instance (pairs : List (String × Int)) : Decidable (Ascending pairs) :=
  inferInstanceAs (Decidable (List.Pairwise _ pairs))

variable {pairs : List (String × Int)}

theorem Ascending.nodup_lines (ascending : Ascending pairs) : (pairs.map Prod.snd).Nodup :=
  List.pairwise_map.mpr (ascending.imp fun lower => Int.ne_of_lt lower)

theorem Ascending.eq_of_line_eq (ascending : Ascending pairs) {pair other : String × Int}
    (inside : other ∈ pairs) (member : pair ∈ pairs) (sameLine : other.2 = pair.2) :
    other = pair :=
  List.inj_on_of_nodup_map ascending.nodup_lines inside member sameLine

end CommentOutline.Outline
