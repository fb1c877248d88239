import Mathlib.Data.List.DropRight
import CommentOutline.Text.Blank
import CommentOutline.Text.Split

set_option autoImplicit false

/-! What cutting a text leaves. No piece holds the separator, a text is cut exactly when it holds
the separator, and pieces with the separator between them are cut apart again. Losing the blanks at
its ends does not give a text anything that it did not hold, and a second time it loses nothing. -/

namespace CommentOutline.Text

theorem occursIn_iff_infix (part cs : List Char) : occursIn part cs = true ↔ part <:+: cs := by
  induction cs with
  | nil =>
      cases part with
      | nil => simp [occursIn]
      | cons c part => simp [occursIn]
  | cons c cs ih =>
      rw [occursIn, Bool.or_eq_true, ih, List.isPrefixOf_iff_prefix, List.infix_cons_iff]

theorem contains_iff_infix (text part : String) :
    contains text part = true ↔ part.toList <:+: text.toList :=
  occursIn_iff_infix _ _

theorem contains_eq_false_iff (text part : String) :
    contains text part = false ↔ ¬ part.toList <:+: text.toList := by
  rw [← contains_iff_infix, Bool.not_eq_true]

/-! ### Pieces -/

theorem extendFirst_length (c : Char) (pieces : List (List Char)) (some_piece : pieces ≠ []) :
    (extendFirst c pieces).length = pieces.length := by
  cases pieces with
  | nil => exact absurd rfl some_piece
  | cons piece pieces => rfl

theorem splitFrom_ne_nil (separator : List Char) (passing : Nat) (cs : List Char) :
    splitFrom separator passing cs ≠ [] := by
  induction cs generalizing passing with
  | nil => simp [splitFrom]
  | cons c cs ih =>
      cases passing with
      | succ passing => exact ih passing
      | zero =>
          rw [splitFrom]
          split
          · exact List.cons_ne_nil _ _
          · cases splitFrom separator 0 cs <;> exact List.cons_ne_nil _ _

theorem splitFrom_first_prefix (separator cs piece : List Char) (pieces : List (List Char))
    (cut : splitFrom separator 0 cs = piece :: pieces) : piece <+: cs := by
  induction cs generalizing piece pieces with
  | nil =>
      simp only [splitFrom, List.cons.injEq] at cut
      obtain ⟨rfl, -⟩ := cut
      exact List.nil_prefix
  | cons c cs ih =>
      rw [splitFrom] at cut
      split at cut
      · obtain ⟨rfl, -⟩ := List.cons.inj cut
        exact List.nil_prefix
      · cases rest : splitFrom separator 0 cs with
        | nil => exact absurd rest (splitFrom_ne_nil separator 0 cs)
        | cons first others =>
            rw [rest, extendFirst] at cut
            rw [← (List.cons.inj cut).1]
            exact (List.prefix_cons_inj c).mpr (ih first others rest)

theorem not_infix_of_mem_splitFrom (separator : List Char) (nonempty : separator ≠ [])
    (cs : List Char) (passing : Nat) (piece : List Char)
    (member : piece ∈ splitFrom separator passing cs) : ¬ separator <:+: piece := by
  have empty : ¬ separator <:+: [] := fun inside => nonempty (List.infix_nil.mp inside)
  induction cs generalizing passing piece with
  | nil =>
      rw [splitFrom, List.mem_singleton] at member
      rw [member]
      exact empty
  | cons c cs ih =>
      cases passing with
      | succ passing => exact ih passing piece member
      | zero =>
          rw [splitFrom] at member
          split at member
          · rcases List.mem_cons.mp member with rfl | later
            · exact empty
            · exact ih _ piece later
          · rename_i absent
            cases rest : splitFrom separator 0 cs with
            | nil => exact absurd rest (splitFrom_ne_nil separator 0 cs)
            | cons first others =>
                rw [rest, extendFirst] at member
                rcases List.mem_cons.mp member with rfl | later
                · rw [List.infix_cons_iff]
                  intro given
                  rcases given with front | inside
                  · -- an occurrence at the front of the piece is one at the front of the text
                    have start : first <+: cs :=
                      splitFrom_first_prefix separator cs first others rest
                    exact absent (List.isPrefixOf_iff_prefix.mpr
                      (front.trans ((List.prefix_cons_inj c).mpr start)))
                  · exact ih 0 first (by rw [rest]; exact List.mem_cons_self) inside
                · exact ih 0 piece (by rw [rest]; exact List.mem_cons_of_mem _ later)

theorem subset_of_mem_splitFrom {separator cs piece : List Char} {passing : Nat}
    (member : piece ∈ splitFrom separator passing cs) : piece ⊆ cs := by
  induction cs generalizing passing piece with
  | nil =>
      rw [splitFrom, List.mem_singleton] at member
      rw [member]
      exact List.Subset.refl []
  | cons c cs ih =>
      cases passing with
      | succ passing => exact List.subset_cons_of_subset c (ih member)
      | zero =>
          rw [splitFrom] at member
          split at member
          · rcases List.mem_cons.mp member with rfl | later
            · exact List.nil_subset _
            · exact List.subset_cons_of_subset c (ih later)
          · cases rest : splitFrom separator 0 cs with
            | nil => exact absurd rest (splitFrom_ne_nil separator 0 cs)
            | cons first others =>
                rw [rest, extendFirst] at member
                rcases List.mem_cons.mp member with rfl | later
                · exact List.cons_subset_cons c (ih (rest ▸ List.mem_cons_self))
                · exact List.subset_cons_of_subset c (ih (rest ▸ List.mem_cons_of_mem _ later))

theorem splitFrom_length_pos (separator : List Char) (passing : Nat) (cs : List Char) :
    1 ≤ (splitFrom separator passing cs).length :=
  List.length_pos_iff.mpr (splitFrom_ne_nil separator passing cs)

theorem two_le_length_splitChars_iff (separator cs : List Char) (nonempty : separator ≠ []) :
    2 ≤ (splitChars separator cs).length ↔ separator <:+: cs := by
  unfold splitChars
  induction cs with
  | nil => simp [splitFrom, nonempty]
  | cons c cs ih =>
      rw [splitFrom, List.infix_cons_iff, ← ih, ← List.isPrefixOf_iff_prefix]
      have rest := splitFrom_length_pos separator (separator.length - 1) cs
      split
      · rename_i front
        simp only [List.length_cons, front, true_or, iff_true]
        omega
      · rename_i absent
        rw [extendFirst_length c _ (splitFrom_ne_nil separator 0 cs)]
        simp [absent]

/-! ### Pieces put together -/

theorem infix_or_infix_of_notMem {α : Type} {part xs ys : List α} {c : α} (absent : c ∉ part)
    (inside : part <:+: xs ++ c :: ys) : part <:+: xs ∨ part <:+: ys := by
  induction xs with
  | nil =>
      rcases List.infix_cons_iff.mp inside with front | later
      · cases part with
        | nil => exact Or.inl List.infix_rfl
        | cons first part =>
            obtain ⟨rfl, -⟩ := List.cons_prefix_cons.mp front
            exact absurd List.mem_cons_self absent
      · exact Or.inr later
  | cons x xs ih =>
      rw [List.cons_append, List.infix_cons_iff, ← List.cons_append] at inside
      rcases inside with front | later
      · have upTo : x :: xs ++ [c] <+: x :: xs ++ c :: ys :=
          (List.prefix_append_right_inj _).mpr (List.cons_prefix_cons.mpr ⟨rfl, List.nil_prefix⟩)
        rcases List.prefix_or_prefix_of_prefix front upTo with short | long
        · rcases List.prefix_concat_iff.mp short with same | within
          · rw [same] at absent
            exact absurd List.mem_concat_self absent
          · exact Or.inl within.isInfix
        · exact absurd (long.subset List.mem_concat_self) absent
      · exact (ih later).imp_left fun within => within.trans (List.suffix_cons x xs).isInfix

theorem append_cons_cancel {α : Type} {mark : α} {xs ys xs' ys' : List α} (absent : mark ∉ xs)
    (absent' : mark ∉ xs') (same : xs ++ mark :: ys = xs' ++ mark :: ys') : xs = xs' ∧ ys = ys' := by
  induction xs generalizing xs' with
  | nil =>
      cases xs' with
      | nil => exact ⟨rfl, (List.cons.inj same).2⟩
      | cons x xs' =>
          rw [List.head_eq_of_cons_eq same] at absent'
          exact absurd List.mem_cons_self absent'
  | cons x xs ih =>
      cases xs' with
      | nil =>
          rw [List.head_eq_of_cons_eq same] at absent
          exact absurd List.mem_cons_self absent
      | cons x' xs' =>
          rw [List.mem_cons, not_or] at absent absent'
          obtain ⟨rfl, behind⟩ := List.cons.inj same
          obtain ⟨rfl, rest⟩ := ih absent.2 absent'.2 behind
          exact ⟨rfl, rest⟩

theorem append_cons_cancel_last {α : Type} {mark : α} {xs ys xs' ys' : List α}
    (absent : mark ∉ ys) (absent' : mark ∉ ys') (same : xs ++ mark :: ys = xs' ++ mark :: ys') :
    xs = xs' ∧ ys = ys' := by
  have turned := congrArg List.reverse same
  simp only [List.reverse_append, List.reverse_cons, List.append_assoc, List.singleton_append]
    at turned
  obtain ⟨behind, front⟩ := append_cons_cancel (by rwa [List.mem_reverse])
    (by rwa [List.mem_reverse]) turned
  exact ⟨List.reverse_injective front, List.reverse_injective behind⟩

theorem splitFrom_passing (separator passed cs : List Char) :
    splitFrom separator passed.length (passed ++ cs) = splitFrom separator 0 cs := by
  induction passed with
  | nil => rfl
  | cons c passed ih => exact ih

theorem splitFrom_eq_singleton {separator cs : List Char} (absent : ¬ separator <:+: cs) :
    splitFrom separator 0 cs = [cs] := by
  induction cs with
  | nil => rfl
  | cons c cs ih =>
      rw [List.infix_cons_iff, not_or] at absent
      rw [splitFrom, if_neg fun front => absent.1 (List.isPrefixOf_iff_prefix.mp front),
        ih absent.2, extendFirst]

/-- The first piece ends where the separator begins, if the separator does not begin before. -/
theorem splitFrom_append {separator front : List Char} (rest : List Char)
    (nonempty : separator ≠ []) (absent : ¬ separator <:+: front ++ separator.dropLast) :
    splitFrom separator 0 (front ++ (separator ++ rest)) = front :: splitFrom separator 0 rest := by
  induction front with
  | nil =>
      obtain ⟨first, others, rfl⟩ := List.exists_cons_of_ne_nil nonempty
      have starts : (first :: others).isPrefixOf (first :: (others ++ rest)) = true :=
        List.isPrefixOf_iff_prefix.mpr (List.prefix_append (first :: others) rest)
      rw [List.nil_append, List.cons_append, splitFrom, if_pos starts, List.length_cons,
        Nat.add_sub_cancel, splitFrom_passing]
  | cons c front ih =>
      rw [List.cons_append, List.infix_cons_iff, not_or] at absent
      have later : ¬ separator.isPrefixOf (c :: (front ++ (separator ++ rest))) = true := by
        intro starts
        -- an occurrence at the front ends before the last character of the separator
        have whole : c :: (front ++ separator.dropLast) <+: c :: (front ++ (separator ++ rest)) := by
          rw [List.prefix_cons_inj, List.prefix_append_right_inj]
          exact (List.dropLast_prefix separator).trans (List.prefix_append separator rest)
        apply absent.1
        apply List.prefix_of_prefix_length_le (List.isPrefixOf_iff_prefix.mp starts) whole
        rw [List.length_cons, List.length_append, List.length_dropLast]
        omega
      rw [List.cons_append, splitFrom, if_neg later, ih absent.2, extendFirst]

/-! ### Stripping -/

theorem prefix_dropEndBlanks (cs : List Char) : dropEndBlanks cs <+: cs :=
  List.rdropWhile_prefix isBlank cs

theorem stripChars_infix (cs : List Char) : stripChars cs <:+: cs := by
  have front : dropBlanks cs <:+ cs := List.dropWhile_suffix isBlank
  exact (prefix_dropEndBlanks (dropBlanks cs)).isInfix.trans front.isInfix

theorem stripChars_cons_blank {c : Char} (blank : isBlank c = true) (cs : List Char) :
    stripChars (c :: cs) = stripChars cs := by
  rw [stripChars, dropBlanks, List.dropWhile_cons_of_pos blank]
  rfl

theorem dropEndBlanks_concat_blank {c : Char} (blank : isBlank c = true) (cs : List Char) :
    dropEndBlanks (cs ++ [c]) = dropEndBlanks cs := by
  rw [dropEndBlanks, List.reverse_concat, List.dropWhile_cons_of_pos blank]
  rfl

theorem stripChars_concat_blank {c : Char} (blank : isBlank c = true) (cs : List Char) :
    stripChars (cs ++ [c]) = stripChars cs := by
  rw [stripChars, stripChars, dropBlanks, dropBlanks, List.dropWhile_append]
  split
  · rename_i allBlank
    rw [List.isEmpty_iff.mp allBlank, List.dropWhile_cons_of_pos blank, List.dropWhile_nil]
  · exact dropEndBlanks_concat_blank blank _

theorem stripChars_eq_self_iff (cs : List Char) :
    stripChars cs = cs ↔
      (∀ c rest, cs = c :: rest → isBlank c = false) ∧
        ∀ start c, cs = start ++ [c] → isBlank c = false := by
  constructor
  · intro same
    refine ⟨?_, ?_⟩
    · rintro c rest rfl
      rw [← Bool.not_eq_true]
      intro blank
      have inside := stripChars_infix rest
      have shorter := inside.length_le
      rw [stripChars_cons_blank blank] at same
      rw [same, List.length_cons] at shorter
      omega
    · rintro start c rfl
      rw [← Bool.not_eq_true]
      intro blank
      have inside := stripChars_infix start
      have shorter := inside.length_le
      rw [stripChars_concat_blank blank] at same
      rw [same, List.length_append, List.length_singleton] at shorter
      omega
  · intro given
    rcases given with ⟨front, back⟩
    have kept : dropBlanks cs = cs := by
      cases cs with
      | nil => rfl
      | cons c rest =>
          apply List.dropWhile_cons_of_neg
          rw [front c rest rfl]
          exact Bool.false_ne_true
    rw [stripChars, kept]
    rcases List.eq_nil_or_concat' cs with rfl | ⟨start, c, rfl⟩
    · rfl
    · apply List.rdropWhile_concat_neg
      rw [back start c rfl]
      exact Bool.false_ne_true

theorem stripChars_stripChars (cs : List Char) : stripChars (stripChars cs) = stripChars cs := by
  have front : dropBlanks (dropEndBlanks (dropBlanks cs)) = dropEndBlanks (dropBlanks cs) := by
    cases stripped : dropEndBlanks (dropBlanks cs) with
    | nil => rfl
    | cons c rest =>
        have start := prefix_dropEndBlanks (dropBlanks cs)
        rw [stripped] at start
        obtain ⟨more, given⟩ := start
        have once : (dropBlanks cs).dropWhile isBlank = dropBlanks cs :=
          List.dropWhile_idempotent isBlank cs
        rw [← given, List.cons_append, List.dropWhile_eq_self_iff] at once
        exact List.dropWhile_cons_of_neg (once (Nat.zero_lt_succ _))
  rw [stripChars, stripChars, front]
  exact List.rdropWhile_idempotent isBlank (dropBlanks cs)

theorem strip_strip (text : String) : strip (strip text) = strip text := by
  rw [strip, strip, String.toList_ofList, stripChars_stripChars]

end CommentOutline.Text
