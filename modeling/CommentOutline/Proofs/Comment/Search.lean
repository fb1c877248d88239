import CommentOutline.Comment.Pattern

set_option autoImplicit false

/-! The search for a payload, stage by stage. At every stage the search finds nothing exactly when
the rest of the line cannot be read from there on, and what it finds comes from the reading that
counts first. -/

namespace CommentOutline.Comment

open Text (isBlank)

def Blank (cs : List Char) : Prop := ∀ c ∈ cs, isBlank c = true

instance (cs : List Char) : Decidable (Blank cs) :=
  List.decidableBAll (fun c => isBlank c = true) cs

theorem blank_cons (c : Char) (cs : List Char) :
    Blank (c :: cs) ↔ isBlank c = true ∧ Blank cs :=
  List.forall_mem_cons

theorem all_isBlank_iff (cs : List Char) : cs.all isBlank = true ↔ Blank cs :=
  List.all_eq_true

theorem after?_eq_some_iff (start cs rest : List Char) :
    after? start cs = some rest ↔ cs = start ++ rest := by
  unfold after?
  constructor
  · intro found
    split at found
    · rename_i front
      obtain ⟨behind, rfl⟩ := List.isPrefixOf_iff_prefix.mp front
      rw [List.drop_left, Option.some.injEq] at found
      rw [found]
    · cases found
  · rintro rfl
    rw [if_pos (List.isPrefixOf_iff_prefix.mpr (List.prefix_append start rest)), List.drop_left]

/-! ### Blanks -/

theorem mem_afterBlanks_iff (cs rest : List Char) :
    rest ∈ afterBlanks cs ↔ ∃ blanks, cs = blanks ++ rest ∧ Blank blanks := by
  induction cs with
  | nil =>
      rw [afterBlanks, List.mem_singleton]
      constructor
      · rintro rfl
        exact ⟨[], rfl, List.forall_mem_nil _⟩
      · intro given
        rcases given with ⟨blanks, split, -⟩
        exact (List.append_eq_nil_iff.mp split.symm).2
  | cons c cs ih =>
      have split_iff : (∃ blanks, c :: cs = blanks ++ rest ∧ Blank blanks) ↔
          rest = c :: cs ∨ isBlank c = true ∧ ∃ blanks, cs = blanks ++ rest ∧ Blank blanks := by
        constructor
        · intro given
          rcases given with ⟨blanks, split, blank⟩
          cases blanks with
          | nil => exact Or.inl split.symm
          | cons first blanks =>
              rw [List.cons_append, List.cons.injEq] at split
              obtain ⟨rfl, split⟩ := split
              rw [blank_cons] at blank
              exact Or.inr ⟨blank.1, blanks, split, blank.2⟩
        · intro given
          rcases given with rfl | ⟨first, blanks, rfl, blank⟩
          · exact ⟨[], rfl, List.forall_mem_nil _⟩
          · exact ⟨c :: blanks, rfl, (blank_cons c blanks).mpr ⟨first, blank⟩⟩
      rw [split_iff, afterBlanks]
      split
      · rename_i first
        rw [List.mem_append, ih, List.mem_singleton, or_comm]
        simp only [first, true_and]
      · rename_i first
        rw [List.mem_singleton]
        exact (or_iff_left fun both => first both.1).symm

variable {Found : Type}

theorem findSome?_afterBlanks_eq_none_iff (search : List Char → Option Found) (cs : List Char) :
    (afterBlanks cs).findSome? search = none ↔
      ∀ blanks rest, cs = blanks ++ rest → Blank blanks → search rest = none := by
  rw [List.findSome?_eq_none_iff]
  constructor
  · intro nowhere blanks rest split blank
    exact nowhere rest ((mem_afterBlanks_iff cs rest).mpr ⟨blanks, split, blank⟩)
  · intro nowhere rest member
    obtain ⟨blanks, split, blank⟩ := (mem_afterBlanks_iff cs rest).mp member
    exact nowhere blanks rest split blank

private theorem cut_cases {front rest front' rest' : List Char}
    (same : front ++ rest = front' ++ rest') :
    front'.length < front.length ∨ (front' = front ∧ rest' = rest) ∨
      front.length < front'.length := by
  rcases Nat.lt_trichotomy front'.length front.length with shorter | equal | longer
  · exact Or.inl shorter
  · obtain ⟨fronts, rests⟩ := List.append_inj same equal.symm
    exact Or.inr (Or.inl ⟨fronts.symm, rests.symm⟩)
  · exact Or.inr (Or.inr longer)

private theorem exists_no_blanks (search : List Char → Option Found) (cs : List Char)
    {found : Found} (here : search cs = some found)
    (clear : ∀ c rest, cs = c :: rest → isBlank c = true →
      (afterBlanks rest).findSome? search = none) :
    ∃ blanks rest, cs = blanks ++ rest ∧ Blank blanks ∧ search rest = some found ∧
      ∀ longer rest', cs = longer ++ rest' → Blank longer → blanks.length < longer.length →
        search rest' = none := by
  refine ⟨[], cs, rfl, List.forall_mem_nil _, here, ?_⟩
  intro longer rest' split run more
  cases longer with
  | nil => exact absurd more (Nat.lt_irrefl 0)
  | cons c longer =>
      rw [blank_cons] at run
      have nowhere := clear c (longer ++ rest') split run.1
      exact (findSome?_afterBlanks_eq_none_iff search _).mp nowhere longer rest' rfl run.2

private theorem exists_longest_blanks (search : List Char → Option Found) (cs : List Char)
    {found : Found} (success : (afterBlanks cs).findSome? search = some found) :
    ∃ blanks rest, cs = blanks ++ rest ∧ Blank blanks ∧ search rest = some found ∧
      ∀ longer rest', cs = longer ++ rest' → Blank longer → blanks.length < longer.length →
        search rest' = none := by
  induction cs with
  | nil =>
      rw [afterBlanks, List.findSome?_singleton] at success
      apply exists_no_blanks search [] success
      intro c rest split
      cases split
  | cons c cs ih =>
      rw [afterBlanks] at success
      split at success
      · rename_i first
        rw [List.findSome?_append] at success
        cases later : (afterBlanks cs).findSome? search with
        | some other =>
            rw [later, Option.some_or, Option.some.injEq] at success
            rw [success] at later
            obtain ⟨blanks, rest, rfl, blank, here, clear⟩ := ih later
            refine ⟨c :: blanks, rest, rfl, (blank_cons c blanks).mpr ⟨first, blank⟩, here, ?_⟩
            intro longer rest' split run more
            cases longer with
            | nil => exact absurd more (Nat.not_lt_zero _)
            | cons second longer =>
                rw [List.cons_append, List.cons.injEq] at split
                exact clear longer rest' split.2 ((blank_cons second longer).mp run).2
                  (Nat.lt_of_succ_lt_succ more)
        | none =>
            rw [later, Option.none_or, List.findSome?_singleton] at success
            apply exists_no_blanks search (c :: cs) success
            intro second rest split _
            rw [← (List.cons.inj split).2]
            exact later
      · rename_i first
        rw [List.findSome?_singleton] at success
        apply exists_no_blanks search (c :: cs) success
        intro second rest split blank
        rw [(List.cons.inj split).1] at first
        exact absurd blank first

/-- What is found behind blanks is found behind the longest run of them that allows it. -/
theorem exists_of_findSome?_afterBlanks (search : List Char → Option Found) (cs : List Char)
    {found : Found} (success : (afterBlanks cs).findSome? search = some found) :
    ∃ blanks rest, cs = blanks ++ rest ∧ Blank blanks ∧ search rest = some found ∧
      ∀ other rest', cs = other ++ rest' → Blank other →
        other.length < blanks.length ∨ (other = blanks ∧ rest' = rest) ∨ search rest' = none := by
  obtain ⟨blanks, rest, split, blank, here, clear⟩ := exists_longest_blanks search cs success
  refine ⟨blanks, rest, split, blank, here, ?_⟩
  intro other rest' split' blank'
  rcases cut_cases (split.symm.trans split') with shorter | same | longer
  · exact Or.inl shorter
  · exact Or.inr (Or.inl same)
  · exact Or.inr (Or.inr (clear other rest' split' blank' longer))

/-- A search behind a fixed text and blanks. -/
def searchBehind (start : List Char) (search : List Char → Option Found) (cs : List Char) :
    Option Found :=
  (after? start cs).bind fun rest => (afterBlanks rest).findSome? search

theorem searchBehind_eq_none_iff (start : List Char) (search : List Char → Option Found)
    (cs : List Char) :
    searchBehind start search cs = none ↔
      ∀ blanks rest, cs = start ++ (blanks ++ rest) → Blank blanks → search rest = none := by
  rw [searchBehind, Option.bind_eq_none_iff]
  simp only [after?_eq_some_iff, findSome?_afterBlanks_eq_none_iff]
  constructor
  · exact fun nowhere blanks rest split => nowhere _ split blanks rest rfl
  · rintro nowhere behind split blanks rest rfl
    exact nowhere blanks rest split

theorem exists_of_searchBehind (start : List Char) (search : List Char → Option Found)
    (cs : List Char) {found : Found} (success : searchBehind start search cs = some found) :
    ∃ blanks rest, cs = start ++ (blanks ++ rest) ∧ Blank blanks ∧ search rest = some found ∧
      ∀ other rest', cs = start ++ (other ++ rest') → Blank other →
        other.length < blanks.length ∨ (other = blanks ∧ rest' = rest) ∨ search rest' = none := by
  obtain ⟨behind, split, success⟩ := Option.bind_eq_some_iff.mp success
  rw [after?_eq_some_iff] at split
  obtain ⟨blanks, rest, rfl, blank, here, others⟩ :=
    exists_of_findSome?_afterBlanks search behind success
  refine ⟨blanks, rest, split, blank, here, ?_⟩
  intro other rest' split'
  exact others other rest' (List.append_cancel_left (split.symm.trans split'))

/-! ### The end of a line -/

/-- The end of a line behind a payload: blanks, perhaps the closer, and blanks. -/
def Tail (closer cs : List Char) : Prop :=
  ∃ trail closing rest, cs = trail ++ (closing ++ rest) ∧ Blank trail ∧ Blank rest ∧
    (closing = [] ∨ closing = closer)

theorem tail_of_blank {closer cs : List Char} (blank : Blank cs) : Tail closer cs :=
  ⟨[], [], cs, rfl, List.forall_mem_nil _, blank, Or.inl rfl⟩

theorem isClosed_cons (closer cs : List Char) (c : Char) :
    isClosed closer (c :: cs) =
      ((after? closer (c :: cs)).any (fun blanks => blanks.all isBlank) ||
        isBlank c && isClosed closer cs) := by
  rw [isClosed]
  cases after? closer (c :: cs) <;> rfl

theorem isClosed_iff (closer cs : List Char) :
    isClosed closer cs = true ↔
      ∃ trail rest, cs = trail ++ (closer ++ rest) ∧ Blank trail ∧ Blank rest := by
  induction cs with
  | nil =>
      rw [isClosed, List.isEmpty_iff]
      constructor
      · rintro rfl
        exact ⟨[], [], rfl, List.forall_mem_nil _, List.forall_mem_nil _⟩
      · intro given
        rcases given with ⟨trail, rest, split, -, -⟩
        exact (List.append_eq_nil_iff.mp (List.append_eq_nil_iff.mp split.symm).2).1
  | cons c cs ih =>
      rw [isClosed_cons, Bool.or_eq_true, Bool.and_eq_true, ih, Option.any_eq_true]
      simp only [after?_eq_some_iff, all_isBlank_iff]
      constructor
      · intro given
        rcases given with ⟨rest, split, blank⟩ | ⟨first, trail, rest, rfl, before, blank⟩
        · exact ⟨[], rest, split, List.forall_mem_nil _, blank⟩
        · exact ⟨c :: trail, rest, rfl, (blank_cons c trail).mpr ⟨first, before⟩, blank⟩
      · intro given
        rcases given with ⟨trail, rest, split, before, blank⟩
        cases trail with
        | nil => exact Or.inl ⟨rest, split, blank⟩
        | cons first trail =>
            rw [List.cons_append, List.cons.injEq] at split
            rw [blank_cons, ← split.1] at before
            exact Or.inr ⟨before.1, trail, rest, split.2, before.2, blank⟩

theorem isTail_iff (closer cs : List Char) : isTail closer cs = true ↔ Tail closer cs := by
  rw [isTail, Bool.or_eq_true, all_isBlank_iff, isClosed_iff]
  constructor
  · intro given
    rcases given with blank | ⟨trail, rest, rfl, before, blank⟩
    · exact tail_of_blank blank
    · exact ⟨trail, closer, rest, rfl, before, blank, Or.inr rfl⟩
  · intro given
    rcases given with ⟨trail, closing, rest, rfl, before, blank, rfl | rfl⟩
    · exact Or.inl (List.forall_mem_append.mpr ⟨before, blank⟩)
    · exact Or.inr ⟨trail, rest, rfl, before, blank⟩

/-! ### The payload -/

def ReadsPayload (closer cs payload : List Char) : Prop :=
  payload ≠ [] ∧ '\n' ∉ payload ∧ ∃ rest, cs = payload ++ rest ∧ Tail closer rest

theorem not_readsPayload_nil (closer payload : List Char) : ¬ ReadsPayload closer [] payload := by
  intro given
  rcases given with ⟨some_char, -, rest, split, -⟩
  exact some_char (List.append_eq_nil_iff.mp split.symm).1

theorem readsPayload_cons (closer cs payload : List Char) (c : Char) :
    ReadsPayload closer (c :: cs) payload ↔
      c ≠ '\n' ∧ (payload = [c] ∧ Tail closer cs ∨
        ∃ more, payload = c :: more ∧ ReadsPayload closer cs more) := by
  constructor
  · intro given
    rcases given with ⟨some_char, oneLine, rest, split, tail⟩
    cases payload with
    | nil => exact absurd rfl some_char
    | cons first more =>
        rw [List.cons_append, List.cons.injEq] at split
        obtain ⟨rfl, split⟩ := split
        rw [List.mem_cons, not_or] at oneLine
        refine ⟨fun feed => oneLine.1 feed.symm, ?_⟩
        cases more with
        | nil =>
            rw [split]
            exact Or.inl ⟨rfl, tail⟩
        | cons second more =>
            exact Or.inr ⟨second :: more, rfl, List.cons_ne_nil _ _, oneLine.2, rest, split, tail⟩
  · intro given
    rcases given with ⟨noFeed, ⟨rfl, tail⟩ | ⟨more, rfl, -, oneLine, rest, rfl, tail⟩⟩
    · refine ⟨List.cons_ne_nil _ _, ?_, cs, rfl, tail⟩
      rw [List.mem_singleton]
      exact fun feed => noFeed feed.symm
    · refine ⟨List.cons_ne_nil _ _, ?_, rest, rfl, tail⟩
      rw [List.mem_cons, not_or]
      exact ⟨fun feed => noFeed feed.symm, oneLine⟩

theorem payload?_eq_none_iff (closer cs : List Char) :
    payload? closer cs = none ↔ ∀ payload, ¬ ReadsPayload closer cs payload := by
  induction cs with
  | nil => exact iff_of_true rfl (not_readsPayload_nil closer)
  | cons c cs ih =>
      simp only [readsPayload_cons]
      rw [payload?]
      split
      · rename_i feed
        exact iff_of_true rfl fun payload both => both.1 feed
      · rename_i noFeed
        split
        · rename_i ends
          rw [isTail_iff] at ends
          refine iff_of_false (Option.some_ne_none _) fun nowhere => ?_
          exact nowhere [c] ⟨noFeed, Or.inl ⟨rfl, ends⟩⟩
        · rename_i goesOn
          rw [isTail_iff] at goesOn
          rw [Option.map_eq_none_iff, ih]
          constructor
          · intro nowhere payload given
            rcases given with ⟨-, ⟨-, tail⟩ | ⟨more, -, read⟩⟩
            · exact goesOn tail
            · exact nowhere more read
          · intro nowhere more read
            exact nowhere (c :: more) ⟨noFeed, Or.inr ⟨more, rfl, read⟩⟩

theorem readsPayload_of_payload? (closer cs : List Char) {payload : List Char}
    (success : payload? closer cs = some payload) :
    ReadsPayload closer cs payload ∧
      ∀ other, ReadsPayload closer cs other → payload.length ≤ other.length := by
  induction cs generalizing payload with
  | nil => cases success
  | cons c cs ih =>
      simp only [readsPayload_cons]
      rw [payload?] at success
      split at success
      · cases success
      · rename_i noFeed
        split at success
        · rename_i ends
          cases success
          refine ⟨⟨noFeed, Or.inl ⟨rfl, (isTail_iff closer cs).mp ends⟩⟩, ?_⟩
          intro other given
          rcases given with ⟨-, ⟨rfl, -⟩ | ⟨more, rfl, -⟩⟩
          · exact Nat.le_refl _
          · exact Nat.succ_le_succ (Nat.zero_le _)
        · rename_i goesOn
          rw [isTail_iff] at goesOn
          obtain ⟨more, later, rfl⟩ := Option.map_eq_some_iff.mp success
          obtain ⟨read, shortest⟩ := ih later
          refine ⟨⟨noFeed, Or.inr ⟨more, rfl, read⟩⟩, ?_⟩
          intro other given
          rcases given with ⟨-, ⟨-, tail⟩ | ⟨rest, rfl, readRest⟩⟩
          · exact absurd tail goesOn
          · exact Nat.succ_le_succ (shortest rest readRest)

end CommentOutline.Comment
