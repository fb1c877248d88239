import Mathlib.Data.Fintype.Card
import Mathlib.Data.List.Basic
import Mathlib.Data.List.Perm.Subperm
import CommentOutline.Proofs.Config.Tables
import CommentOutline.Text.Point

set_option autoImplicit false

/-! Texts with halves of surrogate pairs. As long as enough characters for private use are left,
what is held tells the code points that were read, and nothing that stands for a half is among the
characters that must not. A text has bytes exactly if nothing in it stands for a half. -/

namespace CommentOutline.Text

variable {others taken : List Char} {points : List Point} {standIns : StandIns}

/-! ### Free characters -/

theorem toNat_privateChar {n : Nat} (inside : n < privateCount) :
    (privateChar n).toNat = if n < 0x1900 then 0xE000 + n else 0xEE700 + n := by
  have valid : (if n < 0x1900 then 0xE000 + n else 0xEE700 + n).isValidChar := by
    unfold privateCount at inside
    split <;> exact Or.inr ⟨by omega, by omega⟩
  rw [privateChar, Char.ofNat, dif_pos valid]
  rfl

theorem isPrivate_privateChar {n : Nat} (inside : n < privateCount) :
    isPrivate (privateChar n) = true := by
  have value := toNat_privateChar inside
  unfold privateCount at inside
  simp only [isPrivate, Bool.or_eq_true, Bool.and_eq_true, decide_eq_true_eq]
  split at value <;> omega

theorem privateChar_injective {n m : Nat} (inside : n < privateCount) (inside' : m < privateCount)
    (same : privateChar n = privateChar m) : n = m := by
  have value := congrArg Char.toNat same
  rw [toNat_privateChar inside, toNat_privateChar inside'] at value
  split at value <;> split at value <;> omega

/-! There is room for the characters that are asked for beside those that are taken. -/

section

variable {count : Nat} (room : (taken.filter isPrivate).length + count ≤ privateCount)
include room

theorem notMem_of_mem_freeChars {c : Char} (free : c ∈ freeChars taken count) : c ∉ taken := by
  obtain ⟨candidate, unused⟩ := List.mem_filter.mp (List.mem_of_mem_take free)
  obtain ⟨n, below, rfl⟩ := List.mem_map.mp candidate
  have inside : n < privateCount := Nat.lt_of_lt_of_le (List.mem_range.mp below) room
  intro known
  have used := List.mem_filter.mpr ⟨known, isPrivate_privateChar inside⟩
  simp only [List.contains_eq_mem, used, decide_true, Bool.not_true, Bool.false_eq_true] at unused

theorem nodup_candidates :
    ((List.range ((taken.filter isPrivate).length + count)).map privateChar).Nodup := by
  refine List.Nodup.map_on ?_ List.nodup_range
  intro n below m below'
  exact privateChar_injective (Nat.lt_of_lt_of_le (List.mem_range.mp below) room)
    (Nat.lt_of_lt_of_le (List.mem_range.mp below') room)

theorem nodup_freeChars : (freeChars taken count).Nodup :=
  ((nodup_candidates room).filter _).sublist (List.take_sublist _ _)

/-- Of the candidates, only those that are used are left out. -/
theorem length_freeChars : (freeChars taken count).length = count := by
  let used := taken.filter isPrivate
  let candidates := (List.range (used.length + count)).map privateChar
  have out : (candidates.filter fun c => !!used.contains c).length ≤ used.length := by
    refine (List.subperm_of_subset ((nodup_candidates room).filter _) fun c member => ?_).length_le
    have known := (List.mem_filter.mp member).2
    rwa [Bool.not_not, List.contains_iff_mem] at known
  have parts := List.length_eq_length_filter_add (fun c => !used.contains c) (l := candidates)
  have total : candidates.length = used.length + count := by
    rw [List.length_map, List.length_range]
  have free : (freeChars taken count).length =
      min count (candidates.filter fun c => !used.contains c).length := List.length_take
  omega

end

/-! ### What stands for what -/

theorem mem_halvesOf_iff {offset : Fin 0x800} :
    offset ∈ halvesOf points ↔ Point.half offset ∈ points := by
  induction points with
  | nil => exact iff_of_false List.not_mem_nil List.not_mem_nil
  | cons point points ih =>
      cases point with
      | char c => simp only [halvesOf, ih, List.mem_cons, reduceCtorEq, false_or]
      | half first => simp only [halvesOf, List.mem_insert_iff, ih, List.mem_cons, Point.half.injEq]

theorem nodup_halvesOf (points : List Point) : (halvesOf points).Nodup := by
  induction points with
  | nil => exact List.nodup_nil
  | cons point points ih =>
      cases point with
      | char c => exact ih
      | half offset => exact ih.insert

theorem StandIns.point_of_notMem {c : Char} (free : c ∉ standIns.map Prod.fst) :
    standIns.point c = .char c := by
  rw [point, Config.lookup_eq_none free]

theorem StandIns.point_char_half (once : (standIns.map Prod.fst).Nodup) {offset : Fin 0x800}
    (known : offset ∈ standIns.map Prod.snd) :
    standIns.point (standIns.char (.half offset)) = .half offset := by
  unfold char
  dsimp only
  cases found : standIns.find? fun entry => entry.2 = offset with
  | none =>
      obtain ⟨entry, inside, here⟩ := List.mem_map.mp known
      have passed := List.find?_eq_none.mp found entry inside
      exact absurd (decide_eq_true here) passed
  | some entry =>
      have here : entry.2 = offset := by simpa using List.find?_some found
      have looked := Config.lookup_of_mem once (List.mem_of_find?_eq_some found)
      rw [point, looked, here]

/-- What is held stands for what was read, and the other characters stand for themselves. -/
theorem points_hold (others : List Char) (points : List Point)
    (room : ((others ++ points.filterMap Point.char?).filter isPrivate).length + 0x800 ≤
      privateCount) :
    (hold others points).standIns.points (String.ofList (hold others points).text) = points ∧
      ∀ c ∈ others, (hold others points).standIns.point c = .char c := by
  let taken := others ++ points.filterMap Point.char?
  let halves := halvesOf points
  let free := freeChars taken halves.length
  have few : halves.length ≤ 0x800 := by
    have bound := (nodup_halvesOf points).length_le_card
    rwa [Fintype.card_fin] at bound
  have roomHere : (taken.filter isPrivate).length + halves.length ≤ privateCount :=
    Nat.le_trans (Nat.add_le_add_left few _) room
  have enough : free.length = halves.length := length_freeChars roomHere
  have keys : (free.zip halves).map Prod.fst = free := List.map_fst_zip enough.le
  have values : (free.zip halves).map Prod.snd = halves := List.map_snd_zip enough.ge
  have once : ((free.zip halves).map Prod.fst).Nodup := by
    rw [keys]
    exact nodup_freeChars roomHere
  have itself : ∀ c ∈ taken, StandIns.point (free.zip halves) c = .char c := by
    intro c known
    apply StandIns.point_of_notMem
    rw [keys]
    exact fun inside => notMem_of_mem_freeChars roomHere inside known
  constructor
  · unfold StandIns.points
    rw [String.toList_ofList]
    show (points.map (StandIns.char (free.zip halves))).map (StandIns.point (free.zip halves)) =
      points
    rw [List.map_map]
    refine (List.map_congr_left fun point inside => ?_).trans (List.map_id points)
    cases point with
    | char c =>
        exact itself c (List.mem_append_right _ (List.mem_filterMap.mpr ⟨.char c, inside, rfl⟩))
    | half offset =>
        refine StandIns.point_char_half once ?_
        rw [values]
        exact mem_halvesOf_iff.mpr inside
  · exact fun c inside => itself c (List.mem_append_left _ inside)

/-! ### Bytes -/

theorem firstRun?_eq_none_iff {offset : Nat} :
    firstRun? offset points = none ↔ ∀ point ∈ points, ∃ c, point = .char c := by
  induction points generalizing offset with
  | nil => exact iff_of_true rfl (List.forall_mem_nil _)
  | cons point points ih =>
      rw [List.forall_mem_cons]
      cases point with
      | char c => rw [firstRun?, ih, and_iff_right ⟨c, rfl⟩]
      | half first => simp [firstRun?]

theorem StandIns.exists_point_eq_iff {c : Char} :
    (∃ d, standIns.point c = .char d) ↔ standIns.point c = .char c := by
  unfold point
  cases standIns.lookup c with
  | none => exact iff_of_true ⟨c, rfl⟩ rfl
  | some offset => exact iff_of_false (fun found => nomatch found) fun same => nomatch same

theorem encodePoints_eq_ok_iff {text : String} {bytes : List UInt8} :
    Utf8.encodePoints (standIns.points text) = .ok bytes ↔
      (∀ c ∈ text.toList, standIns.point c = .char c) ∧ Utf8.encode text.toList = bytes := by
  have none_iff : firstRun? 0 (standIns.points text) = none ↔
      ∀ c ∈ text.toList, standIns.point c = .char c := by
    rw [firstRun?_eq_none_iff, StandIns.points, List.forall_mem_map]
    exact forall₂_congr fun c _ => StandIns.exists_point_eq_iff
  unfold Utf8.encodePoints
  split
  · rename_i run found
    refine iff_of_false (fun encoded => nomatch encoded) fun both => ?_
    rw [none_iff.mpr both.1] at found
    cases found
  · rename_i nothing
    have themselves := none_iff.mp nothing
    have chars : (standIns.points text).filterMap Point.char? = text.toList := by
      rw [StandIns.points, List.filterMap_map]
      refine (List.filterMap_congr fun c inside => ?_).trans List.filterMap_some
      rw [Function.comp_apply, themselves c inside, Point.char?]
    rw [chars, Except.ok.injEq, and_iff_right themselves]

end CommentOutline.Text
