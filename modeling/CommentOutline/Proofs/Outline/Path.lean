import CommentOutline.Outline.Builder
import CommentOutline.Proofs.Text.Pieces

set_option autoImplicit false

/-! Label paths and their keys. The key of a path is its labels with the joiner between any two.
Labels that hold no `::` make keys that can be read back: two paths of such labels with one key
are one path, and the key can be cut into its labels again. -/

namespace CommentOutline.Outline

open Text (contains contains_eq_false_iff contains_iff_infix)

/-- The key of the group at the end of a path: its labels with the joiner between any two. -/
def pathKey (path : List String) : String := " :: ".intercalate path

/-- A label as the standard separator leaves it. -/
def Plain (label : String) : Prop := contains label "::" = false

def PlainPath (path : List String) : Prop := ∀ label ∈ path, Plain label

/-- The last part of the key of an entry, as if it were a label. -/
def lineTag (line : Int) : String := leafTag ++ line.repr

theorem pathKey_singleton (label : String) : pathKey [label] = label :=
  String.intercalate_singleton

theorem pathKey_cons (top : String) (rest : List String) :
    pathKey (top :: rest) = rest.foldl containerKey top := by
  unfold pathKey
  induction rest generalizing top with
  | nil => exact String.intercalate_singleton
  | cons label rest ih =>
      have joined : containerKey top label = top ++ " :: " ++ label := rfl
      rw [List.foldl_cons, ← ih, joined, String.intercalate_cons_append,
        String.intercalate_cons_cons]

theorem pathKey_append (path rest : List String) (nonempty : path ≠ []) :
    pathKey (path ++ rest) = rest.foldl containerKey (pathKey path) := by
  cases path with
  | nil => exact absurd rfl nonempty
  | cons top below => rw [List.cons_append, pathKey_cons, pathKey_cons, List.foldl_append]

theorem pathKey_concat (path : List String) (label : String) (nonempty : path ≠ []) :
    pathKey (path ++ [label]) = containerKey (pathKey path) label :=
  pathKey_append path [label] nonempty

theorem leafKey_eq_containerKey (parent label : String) (line : Int) :
    leafKey parent label line = containerKey (containerKey parent label) (lineTag line) := by
  simp only [leafKey, containerKey, lineTag, String.append_assoc]

theorem leafKey_pathKey (path : List String) (label : String) (line : Int) (nonempty : path ≠ []) :
    leafKey (pathKey path) label line = pathKey (path ++ [label, lineTag line]) := by
  rw [pathKey_append path _ nonempty, leafKey_eq_containerKey]
  rfl

theorem containerKey_length_lt (parent label : String) :
    parent.length < (containerKey parent label).length := by
  simp only [containerKey, keyJoiner, String.length_append]
  have joiner : (" :: " : String).length = 4 := by decide
  omega

theorem leafKey_length_lt (parent label : String) (line : Int) :
    parent.length < (leafKey parent label line).length := by
  rw [leafKey_eq_containerKey]
  exact Nat.lt_trans (containerKey_length_lt parent label) (containerKey_length_lt _ _)

/-! ### Labels without the standard separator -/

theorem Plain.not_infix {label : String} (plain : Plain label) :
    ¬ [':', ':'] <:+: label.toList :=
  (contains_eq_false_iff label "::").mp plain

private theorem notMem_digits {mark : Char} (noDigit : mark.isDigit = false) (n : Nat) :
    mark ∉ n.repr.toList := by
  intro member
  rw [Nat.toList_repr] at member
  have digit := Nat.isDigit_of_mem_toDigits (by decide) (by decide) member
  rw [noDigit] at digit
  cases digit

theorem notMem_repr {mark : Char} (noDigit : mark.isDigit = false) (noSign : mark ≠ '-')
    (line : Int) : mark ∉ line.repr.toList := by
  cases line with
  | ofNat n => exact notMem_digits noDigit n
  | negSucc n =>
      intro member
      rw [Int.repr, String.toList_append, List.mem_append] at member
      rcases member with sign | digits
      · exact noSign (List.mem_singleton.mp sign)
      · exact notMem_digits noDigit _ digits

private theorem digits_inj {m n : Nat} (same : m.repr.toList = n.repr.toList) : m = n := by
  rw [Nat.toList_repr, Nat.toList_repr] at same
  rw [← Nat.ofDigitChars_ten_toDigits (n := m), same, Nat.ofDigitChars_ten_toDigits]

theorem repr_inj {line line' : Int} (same : line.repr = line'.repr) : line = line' := by
  have signed : ∀ n : Nat, (Int.negSucc n).repr.toList = '-' :: (n + 1).repr.toList := fun n => by
    rw [Int.repr, String.toList_append]
    rfl
  have unsigned : ∀ m n : Nat, m.repr.toList ≠ (Int.negSucc n).repr.toList := by
    intro m n same
    refine notMem_digits (by decide : '-'.isDigit = false) m ?_
    rw [same, signed]
    exact List.mem_cons_self
  have chars := congrArg String.toList same
  cases line with
  | ofNat m =>
      cases line' with
      | ofNat n => rw [digits_inj chars]
      | negSucc n => exact absurd chars (unsigned m n)
  | negSucc m =>
      cases line' with
      | ofNat n => exact absurd chars.symm (unsigned n m)
      | negSucc n =>
          rw [signed, signed] at chars
          rw [Nat.succ.inj (digits_inj (List.cons.inj chars).2)]

theorem lineTag_plain (line : Int) : Plain (lineTag line) := by
  rw [Plain, contains_eq_false_iff]
  intro inside
  have member : ':' ∈ (lineTag line).toList := inside.subset List.mem_cons_self
  rw [lineTag, String.toList_append, List.mem_append] at member
  rcases member with tag | number
  · exact absurd tag (by decide)
  · exact notMem_repr (by decide) (by decide) line number

theorem contains_of_mem_segments {separator label segment : String} (nonempty : separator ≠ "")
    (member : segment ∈ Builder.segments separator label) : contains segment separator = false := by
  obtain ⟨piece, inPieces, rfl⟩ := List.mem_map.mp member
  obtain ⟨chars, cut, rfl⟩ := List.mem_map.mp inPieces
  have some_char : separator.toList ≠ [] := fun none => nonempty (String.toList_eq_nil_iff.mp none)
  have absent := Text.not_infix_of_mem_splitFrom separator.toList some_char _ 0 chars cut
  rw [contains_eq_false_iff, Text.strip, String.toList_ofList, String.toList_ofList]
  exact fun inside => absent (inside.trans (Text.stripChars_infix chars))

theorem segments_plain (label : String) : PlainPath (Builder.segments "::" label) :=
  fun _ member => contains_of_mem_segments (by decide) member

theorem Builder.segments_ne_nil (separator label : String) :
    Builder.segments separator label ≠ [] := by
  unfold Builder.segments Text.split Text.splitChars
  simp only [ne_eq, List.map_eq_nil_iff]
  exact Text.splitFrom_ne_nil _ _ _

theorem two_le_length_segments_iff {separator : String} (label : String)
    (nonempty : separator ≠ "") :
    2 ≤ (Builder.segments separator label).length ↔ contains label separator = true := by
  have some_char : separator.toList ≠ [] := fun none => nonempty (String.toList_eq_nil_iff.mp none)
  rw [Builder.segments, List.length_map, Text.split, List.length_map,
    Text.two_le_length_splitChars_iff _ _ some_char, contains_iff_infix]

theorem exists_segments_of_contains {separator raw : String} (nonempty : separator ≠ "")
    (cut : contains raw separator = true) :
    ∃ top next rest, Builder.segments separator raw = top :: next :: rest := by
  have long := (two_le_length_segments_iff raw nonempty).mpr cut
  cases labels : Builder.segments separator raw with
  | nil =>
      rw [labels] at long
      exact absurd long (by decide)
  | cons top rest =>
      rw [labels, List.length_cons] at long
      obtain ⟨next, more, rfl⟩ := List.exists_cons_of_length_pos (Nat.le_of_succ_le_succ long)
      exact ⟨top, next, more, rfl⟩

theorem plainPath_nil : PlainPath [] := fun _ member => nomatch member

theorem PlainPath.front {path rest : List String} (plain : PlainPath (path ++ rest)) :
    PlainPath path :=
  fun label member => plain label (List.mem_append_left _ member)

theorem PlainPath.append {path rest : List String} (plain : PlainPath path)
    (plainRest : PlainPath rest) : PlainPath (path ++ rest) := by
  intro label member
  rcases List.mem_append.mp member with front | back
  · exact plain label front
  · exact plainRest label back

theorem Plain.path {label : String} (plain : Plain label) : PlainPath [label] := by
  intro one member
  rw [List.mem_singleton.mp member]
  exact plain

theorem PlainPath.concat {path : List String} {label : String} (plain : PlainPath path)
    (plainLabel : Plain label) : PlainPath (path ++ [label]) :=
  plain.append plainLabel.path

/-! ### Reading a key back -/

theorem pathKey_cons_cons (label next : String) (rest : List String) :
    pathKey (label :: next :: rest) = label ++ keyJoiner ++ pathKey (next :: rest) :=
  String.intercalate_cons_cons

private theorem joiner_overlap (extra rest rest' : List Char)
    (joined : ' ' :: ':' :: ':' :: ' ' :: rest' = extra ++ ' ' :: ':' :: ':' :: ' ' :: rest) :
    extra = [] ∨ [':', ':'] <:+: extra := by
  match extra, joined with
  | [], _ => exact Or.inl rfl
  | [_], joined => simp at joined
  | [_, _], joined => simp at joined
  | a :: b :: c :: more, joined =>
      simp only [List.cons_append, List.cons.injEq] at joined
      obtain ⟨rfl, rfl, rfl, _⟩ := joined
      exact Or.inr ⟨[' '], more, rfl⟩

private theorem joined_front_eq (front front' rest rest' : List Char)
    (plain : ¬ [':', ':'] <:+: front) (plain' : ¬ [':', ':'] <:+: front')
    (same : front ++ ' ' :: ':' :: ':' :: ' ' :: rest =
      front' ++ ' ' :: ':' :: ':' :: ' ' :: rest') :
    front = front' := by
  rcases List.append_eq_append_iff.mp same with ⟨extra, rfl, joined⟩ | ⟨extra, rfl, joined⟩
  · rcases joiner_overlap extra rest' rest joined with rfl | inside
    · exact (List.append_nil front).symm
    · exact absurd (inside.trans (List.suffix_append front extra).isInfix) plain'
  · rcases joiner_overlap extra rest rest' joined with rfl | inside
    · exact List.append_nil front'
    · exact absurd (inside.trans (List.suffix_append front' extra).isInfix) plain

private theorem keyJoiner_toList : keyJoiner.toList = [' ', ':', ':', ' '] := by decide

private theorem Plain.front_eq {label label' : String} (plain : Plain label)
    (plain' : Plain label') {rest rest' : String}
    (same : label ++ keyJoiner ++ rest = label' ++ keyJoiner ++ rest') :
    label = label' ∧ rest = rest' := by
  have chars := congrArg String.toList same
  simp only [String.toList_append, keyJoiner_toList, List.append_assoc, List.cons_append,
    List.nil_append] at chars
  have front := joined_front_eq _ _ _ _ plain.not_infix plain'.not_infix chars
  rw [front, List.append_cancel_left_eq] at chars
  simp only [List.cons.injEq, true_and] at chars
  exact ⟨String.toList_inj.mp front, String.toList_inj.mp chars⟩

private theorem Plain.ne_joined {label : String} (plain : Plain label) (front rest : String) :
    label ≠ front ++ keyJoiner ++ rest := by
  intro same
  apply plain.not_infix
  rw [same]
  simp only [String.toList_append, keyJoiner_toList]
  exact ⟨front.toList ++ [' '], ' ' :: rest.toList, by simp⟩

theorem pathKey_injective {path path' : List String} (plain : PlainPath path)
    (plain' : PlainPath path') (nonempty : path ≠ []) (nonempty' : path' ≠ [])
    (same : pathKey path = pathKey path') : path = path' := by
  induction path generalizing path' with
  | nil => exact absurd rfl nonempty
  | cons label rest ih =>
      have plainLabel : Plain label := plain label List.mem_cons_self
      match rest, path' with
      | _, [] => exact absurd rfl nonempty'
      | [], [label'] => exact congrArg (fun one => [one]) same
      | [], label' :: next' :: rest' =>
          rw [pathKey_cons_cons label' next' rest'] at same
          exact absurd same (plainLabel.ne_joined _ _)
      | next :: rest, [label'] =>
          rw [pathKey_cons_cons label next rest] at same
          exact absurd same.symm ((plain' label' List.mem_cons_self).ne_joined _ _)
      | next :: rest, label' :: next' :: rest' =>
          rw [pathKey_cons_cons, pathKey_cons_cons] at same
          obtain ⟨rfl, below⟩ := plainLabel.front_eq (plain' label' List.mem_cons_self) same
          have tails : next :: rest = next' :: rest' :=
            ih (fun one member => plain one (List.mem_cons_of_mem _ member))
              (fun one member => plain' one (List.mem_cons_of_mem _ member))
              (List.cons_ne_nil _ _) (List.cons_ne_nil _ _) below
          rw [tails]

theorem pathKey_concat_injective {path path' : List String} {label label' : String}
    (plain : PlainPath (path ++ [label])) (plain' : PlainPath (path' ++ [label']))
    (same : pathKey (path ++ [label]) = pathKey (path' ++ [label'])) :
    path = path' ∧ label = label' := by
  have joined := pathKey_injective plain plain' (by simp) (by simp) same
  have parts := List.append_inj' joined rfl
  exact ⟨parts.1, List.head_eq_of_cons_eq parts.2⟩

theorem leafKey_ne_pathKey {path : List String} {label label' : String} (nonempty : path ≠ [])
    (plain : PlainPath path) (plainLabel : Plain label) (plainLabel' : Plain label') (line : Int) :
    leafKey (pathKey path) label line ≠ pathKey (path ++ [label']) := by
  intro same
  rw [leafKey_pathKey path label line nonempty] at same
  have plainEntry : PlainPath (path ++ [label, lineTag line]) :=
    plain.append (plainLabel.path.append (lineTag_plain line).path)
  have joined := pathKey_injective plainEntry (plain.concat plainLabel') (by simp) (by simp) same
  have lengths := congrArg List.length joined
  simp at lengths

/-! ### Cutting a key -/

private theorem pathKey_toList (label next : String) (rest : List String) :
    (pathKey (label :: next :: rest)).toList =
      label.toList ++ ' ' :: ([':', ':'] ++ ' ' :: (pathKey (next :: rest)).toList) := by
  rw [pathKey_cons_cons, String.toList_append, String.toList_append, keyJoiner_toList,
    List.append_assoc]
  rfl

private theorem Plain.not_infix_blanks {label : String} (plain : Plain label) {lead : List Char}
    (short : lead = [] ∨ lead = [' ']) (rest : List Char) (alone : rest = [] ∨ rest = [' ', ':']) :
    ¬ [':', ':'] <:+: lead ++ label.toList ++ rest := by
  intro inside
  have within : [':', ':'] <:+: lead ++ label.toList := by
    rcases alone with rfl | rfl
    · rw [List.append_nil] at inside
      exact inside
    · rcases Text.infix_or_infix_of_notMem (by decide) inside with front | back
      · exact front
      · exact absurd back (by decide)
  rcases short with rfl | rfl
  · exact plain.not_infix within
  · have behind : [':', ':'] <:+: [] ++ ' ' :: label.toList := within
    rcases Text.infix_or_infix_of_notMem (by decide) behind with front | back
    · exact absurd front (by decide)
    · exact plain.not_infix back

private theorem stripChars_lead {lead : List Char} (short : lead = [] ∨ lead = [' '])
    (cs : List Char) : Text.stripChars (lead ++ cs) = Text.stripChars cs := by
  rcases short with rfl | rfl
  · rfl
  · exact Text.stripChars_cons_blank (by decide) cs

private theorem map_stripChars_splitFrom (path : List String) (plain : PlainPath path)
    (nonempty : path ≠ []) (lead : List Char) (short : lead = [] ∨ lead = [' ']) :
    (Text.splitFrom [':', ':'] 0 (lead ++ (pathKey path).toList)).map Text.stripChars =
      path.map fun label => Text.stripChars label.toList := by
  -- every label but the first has a blank before it, which is what `lead` stands for
  induction path generalizing lead with
  | nil => exact absurd rfl nonempty
  | cons label rest ih =>
      have plainLabel : Plain label := plain label List.mem_cons_self
      cases rest with
      | nil =>
          have absent := plainLabel.not_infix_blanks short [] (Or.inl rfl)
          rw [List.append_nil] at absent
          rw [pathKey_singleton, Text.splitFrom_eq_singleton absent, List.map_singleton,
            stripChars_lead short]
          rfl
      | cons next rest =>
          have absent : ¬ [':', ':'] <:+: (lead ++ label.toList ++ [' ']) ++ [':', ':'].dropLast := by
            rw [List.append_assoc]
            exact plainLabel.not_infix_blanks short _ (Or.inr rfl)
          have pieces := Text.splitFrom_append (' ' :: (pathKey (next :: rest)).toList)
            (List.cons_ne_nil ':' [':']) absent
          have later := ih (fun other inside => plain other (List.mem_cons_of_mem _ inside))
            (List.cons_ne_nil _ _) [' '] (Or.inr rfl)
          rw [List.singleton_append] at later
          rw [pathKey_toList, ← List.append_assoc, List.append_cons, pieces, List.map_cons, later,
            Text.stripChars_concat_blank (by decide), stripChars_lead short]
          rfl

/-- Cutting a key at the standard separator gives its labels without the blanks at their ends. -/
theorem segments_pathKey {path : List String} (plain : PlainPath path) (nonempty : path ≠ []) :
    Builder.segments "::" (pathKey path) = path.map Text.strip := by
  have pieces := map_stripChars_splitFrom path plain nonempty [] (Or.inl rfl)
  have token : ("::" : String).toList = [':', ':'] := by decide
  rw [Builder.segments, Text.split, Text.splitChars, token, List.map_map]
  have inner : Text.strip ∘ String.ofList = String.ofList ∘ Text.stripChars := by
    funext cs
    rw [Function.comp_apply, Text.strip, String.toList_ofList, Function.comp_apply]
  rw [inner, ← List.map_map, ← List.nil_append (pathKey path).toList, pieces, List.map_map]
  rfl

theorem map_strip_segments (separator label : String) :
    (Builder.segments separator label).map Text.strip = Builder.segments separator label := by
  rw [Builder.segments, List.map_map]
  apply List.map_congr_left
  intro piece _
  exact Text.strip_strip piece

theorem segments_pathKey_segments (label : String) :
    Builder.segments "::" (pathKey (Builder.segments "::" label)) = Builder.segments "::" label := by
  rw [segments_pathKey (segments_plain label) (Builder.segments_ne_nil "::" label),
    map_strip_segments]

end CommentOutline.Outline
