import Mathlib.Data.List.Perm.Basic
import Mathlib.Data.String.Basic
import CommentOutline.Proofs.Config.Tables
import CommentOutline.Proofs.Json.RoundTrip

set_option autoImplicit false

/-! Values with sorted keys. Sorting changes nothing but the order of keys, and values that differ
in nothing else become one. So the sorted form of a value stands for all of its orders. -/

namespace CommentOutline

namespace Config

/-- Values without floats, dates and times, and with no number that is too long to be written. -/
inductive Value.Exact : Value → Prop
  | null : Exact .null
  | bool (value : Bool) : Exact (.bool value)
  | int {value : Int} : Text.isLong value = false → Exact (.int value)
  | text (value : String) : Exact (.text value)
  | list {items : List Value} : (∀ item ∈ items, Exact item) → Exact (.list items)
  | table {entries : Table} : (∀ entry ∈ entries, Exact entry.2) → Exact (.table entries)

/-- Values in which the keys of every table ascend, at any depth. Keys are compared character by
character, and characters by their code points. -/
inductive Value.KeysAscending : Value → Prop
  | null : KeysAscending .null
  | bool (value : Bool) : KeysAscending (.bool value)
  | int (value : Int) : KeysAscending (.int value)
  | float (value : Decimal.Binary64) : KeysAscending (.float value)
  | text (value : String) : KeysAscending (.text value)
  | moment (value : Moment) : KeysAscending (.moment value)
  | list {items : List Value} : (∀ item ∈ items, KeysAscending item) → KeysAscending (.list items)
  | table {entries : Table} : (entries.map Prod.fst).Pairwise (· < ·) →
      (∀ entry ∈ entries, KeysAscending entry.2) → KeysAscending (.table entries)

variable {a b value : Value}

/-! ### Finds among values -/

theorem findLeafAmong?_eq_none {α : Type} {find : Value → Option α} {items : List Value}
    (each : ∀ item ∈ items, item.findLeaf? find = none) :
    Value.findLeafAmong? find items = none := by
  induction items with
  | nil => rfl
  | cons item items ih =>
      obtain ⟨here, behind⟩ := List.forall_mem_cons.mp each
      rw [Value.findLeafAmong?, here, ih behind]
      rfl

theorem findLeafUnder?_eq_none {α : Type} {find : Value → Option α} {entries : Table}
    (each : ∀ entry ∈ entries, entry.2.findLeaf? find = none) :
    Value.findLeafUnder? find entries = none := by
  induction entries with
  | nil => rfl
  | cons entry entries ih =>
      obtain ⟨here, behind⟩ := List.forall_mem_cons.mp each
      rw [Value.findLeafUnder?, here, ih behind]
      rfl

theorem findLeafUnder?_eq_some {α : Type} {find : Value → Option α} {found : α} {entries : Table}
    (same : ∀ entry ∈ entries, entry.2.findLeaf? find = none ∨ entry.2.findLeaf? find = some found)
    (holds : ∃ entry ∈ entries, entry.2.findLeaf? find = some found) :
    Value.findLeafUnder? find entries = some found := by
  induction entries with
  | nil =>
      obtain ⟨entry, inside, -⟩ := holds
      cases inside
  | cons entry entries ih =>
      obtain ⟨here | here, behind⟩ := List.forall_mem_cons.mp same
      · have later : ∃ entry ∈ entries, entry.2.findLeaf? find = some found := by
          obtain ⟨holder, inside, finds⟩ := holds
          cases inside with
          | head => rw [here] at finds; cases finds
          | tail _ inside => exact ⟨holder, inside, finds⟩
        rw [Value.findLeafUnder?, here, ih behind later]
        rfl
      · rw [Value.findLeafUnder?, here]
        rfl

/-! ### Ascending keys -/

theorem Value.KeysAscending.keyedOnce (ascending : value.KeysAscending) : value.KeyedOnce := by
  induction ascending with
  | null => exact .null
  | bool value => exact .bool value
  | int value => exact .int value
  | float value => exact .float value
  | text value => exact .text value
  | moment value => exact .moment value
  | list _ ih => exact .list ih
  | table keys _ ih => exact .table (keys.imp fun before => ne_of_lt before) ih

theorem Value.KeysAscending.items {items : List Value}
    (ascending : (Value.list items).KeysAscending) : ∀ item ∈ items, item.KeysAscending := by
  cases ascending with
  | list each => exact each

theorem Value.KeysAscending.keys {entries : Table}
    (ascending : (Value.table entries).KeysAscending) :
    (entries.map Prod.fst).Pairwise (· < ·) := by
  cases ascending with
  | table keys _ => exact keys

theorem Value.KeysAscending.get? {entries : Table}
    (ascending : (Value.table entries).KeysAscending) {key : String}
    (found : entries.lookup key = some value) : value.KeysAscending := by
  cases ascending with
  | table _ each => exact each _ (mem_of_lookup found)

/-- Where keys ascend, their order is no choice. -/
theorem Value.Reordered.eq_of_ascending (reordered : a.Reordered b) (first : a.KeysAscending)
    (second : b.KeysAscending) : a = b := by
  induction reordered with
  | refl => rfl
  | list length _ ih =>
      congr 1
      refine List.ext_getElem length fun place inside inside' => ?_
      exact ih place _ _ (List.getElem?_eq_getElem inside) (List.getElem?_eq_getElem inside')
        (first.items _ (List.getElem_mem inside)) (second.items _ (List.getElem_mem inside'))
  | @table entries entries' same _ ih =>
      have once := first.keys.imp fun before => ne_of_lt before
      have once' := second.keys.imp fun before => ne_of_lt before
      have names : entries.map Prod.fst = entries'.map Prod.fst :=
        ((List.perm_ext_iff_of_nodup once once').mpr same).eq_of_pairwise
          (fun _ _ _ _ before after => absurd after (lt_asymm before)) first.keys second.keys
      congr 1
      refine eq_of_lookup once names (lookup_eq_of_keys same ?_)
      intro key value value' found found'
      exact ih key value value' found found' (first.get? found) (second.get? found')

end Config

namespace Json

open Config (Value Table)

variable {value a b : Value} {entries : Table}

/-! ### Sorting -/

theorem sortItems_eq_map (items : List Value) : sortItems items = items.map sortKeys := by
  induction items with
  | nil => rfl
  | cons item items ih => rw [sortItems, ih, List.map_cons]

theorem sortEntries_eq_map (entries : Table) :
    sortEntries entries = entries.map fun entry => (entry.1, sortKeys entry.2) := by
  induction entries with
  | nil => rfl
  | cons entry entries ih => rw [sortEntries, ih, List.map_cons]

/-- The entries of a sorted table: sorted values, in the order of their keys. -/
def sortTable (entries : Table) : Table :=
  (sortEntries entries).mergeSort fun one two => decide (one.1 ≤ two.1)

theorem sortTable_perm (entries : Table) :
    (sortTable entries).Perm (entries.map fun entry => (entry.1, sortKeys entry.2)) :=
  sortEntries_eq_map entries ▸ List.mergeSort_perm _ _

theorem keys_sortTable_perm (entries : Table) :
    ((sortTable entries).map Prod.fst).Perm (entries.map Prod.fst) := by
  have perm := (sortTable_perm entries).map Prod.fst
  rwa [List.map_map] at perm

theorem mem_sortTable_iff {entry : String × Value} :
    entry ∈ sortTable entries ↔ ∃ held ∈ entries, (held.1, sortKeys held.2) = entry := by
  rw [(sortTable_perm entries).mem_iff, List.mem_map]

theorem keys_sortTable_ascending (once : (entries.map Prod.fst).Nodup) :
    ((sortTable entries).map Prod.fst).Pairwise (· < ·) := by
  have noLater : (sortTable entries).Pairwise fun one two => one.1 ≤ two.1 := by
    refine (List.pairwise_mergeSort ?_ ?_ _).imp of_decide_eq_true
    · intro one two three first second
      exact decide_eq_true (le_trans (of_decide_eq_true first) (of_decide_eq_true second))
    · intro one two
      rw [Bool.or_eq_true, decide_eq_true_eq, decide_eq_true_eq]
      exact le_total one.1 two.1
  have onceSorted := (keys_sortTable_perm entries).nodup_iff.mpr once
  exact (List.pairwise_map.mpr noLater).imp₂ (fun _ _ => lt_of_le_of_ne) onceSorted

theorem lookup_map_sortKeys (entries : Table) (key : String) :
    (entries.map fun entry => (entry.1, sortKeys entry.2)).lookup key =
      (entries.lookup key).map sortKeys := by
  induction entries with
  | nil => rfl
  | cons entry entries ih =>
      rw [List.map_cons, Config.lookup_cons_if, Config.lookup_cons_if, ih]
      split <;> rfl

theorem lookup_sortTable (once : (entries.map Prod.fst).Nodup) (key : String) :
    (sortTable entries).lookup key = (entries.lookup key).map sortKeys := by
  have onceSorted := (keys_sortTable_perm entries).nodup_iff.mpr once
  rw [Config.lookup_perm (sortTable_perm entries) onceSorted, lookup_map_sortKeys]

theorem keysAscending_sortKeys (once : value.KeyedOnce) : (sortKeys value).KeysAscending := by
  induction once with
  | null => exact .null
  | bool value => exact .bool value
  | int value => exact .int value
  | float value => exact .float value
  | text value => exact .text value
  | moment value => exact .moment value
  | list _ ih =>
      rw [sortKeys, sortItems_eq_map]
      exact .list (List.forall_mem_map.mpr ih)
  | @table entries once _ ih =>
      refine .table (keys_sortTable_ascending once) fun entry inside => ?_
      obtain ⟨held, there, rfl⟩ := mem_sortTable_iff.mp inside
      exact ih held there

theorem reordered_sortKeys (once : value.KeyedOnce) : (sortKeys value).Reordered value := by
  induction once with
  | null | bool | int | float | text | moment => exact .refl _
  | @list items _ ih =>
      rw [sortKeys, sortItems_eq_map]
      refine .list (List.length_map _) fun place item item' found found' => ?_
      rw [List.getElem?_map, found', Option.map_some, Option.some.injEq] at found
      exact found ▸ ih item' (List.mem_of_getElem? found')
  | @table entries once _ ih =>
      refine .table (fun key => (keys_sortTable_perm entries).mem_iff) ?_
      intro key one two found found'
      have sorted := lookup_sortTable once key
      rw [found', Option.map_some] at sorted
      obtain rfl := Option.some.inj (found.symm.trans sorted)
      exact ih _ (Config.mem_of_lookup found')

/-- The sorted form tells exactly what does not depend on the order of keys. -/
theorem sortKeys_eq_sortKeys_iff (onceA : a.KeyedOnce) (onceB : b.KeyedOnce) :
    sortKeys a = sortKeys b ↔ a.Reordered b := by
  have first := reordered_sortKeys onceA
  have second := reordered_sortKeys onceB
  constructor
  · intro same
    exact first.symm.trans (same ▸ second)
  · intro reordered
    exact ((first.trans reordered).trans second.symm).eq_of_ascending
      (keysAscending_sortKeys onceA) (keysAscending_sortKeys onceB)

/-! ### Exact values -/

theorem exact_sortKeys (isExact : value.Exact) : (sortKeys value).Exact := by
  induction isExact with
  | null => exact .null
  | bool value => exact .bool value
  | int short => exact .int short
  | text value => exact .text value
  | list _ ih =>
      rw [sortKeys, sortItems_eq_map]
      exact .list (List.forall_mem_map.mpr ih)
  | @table entries _ ih =>
      show (Value.table (sortTable entries)).Exact
      refine .table fun entry inside => ?_
      obtain ⟨held, there, rfl⟩ := mem_sortTable_iff.mp inside
      exact ih held there

theorem readable_of_exact (isExact : value.Exact) (once : value.KeyedOnce) : Readable value := by
  induction isExact with
  | null => exact .null
  | bool value => exact .bool value
  | int _ => exact .int _
  | text value => exact .text value
  | list _ ih =>
      cases once with
      | list once => exact .list fun item inside => ih item inside (once item inside)
  | table _ ih =>
      cases once with
      | table keys once => exact .table keys fun entry inside => ih entry inside (once entry inside)

theorem firstUnshown?_of_exact (isExact : value.Exact) : firstUnshown? value = none := by
  unfold firstUnshown?
  induction isExact with
  | null | bool | text => rfl
  | int short => simp only [Value.findLeaf?, unshown?, short, Bool.false_eq_true, if_false]
  | list _ ih => exact Config.findLeafAmong?_eq_none ih
  | table _ ih => exact Config.findLeafUnder?_eq_none ih

theorem firstUnshown?_concat_long (exact : ∀ entry ∈ entries, entry.2.Exact) (key : String)
    {number : Int} (long : Text.isLong number = true) :
    firstUnshown? (sortKeys (.table (entries ++ [(key, .int number)]))) = some .long := by
  have last : firstUnshown? (sortKeys (.int number)) = some .long := by
    simp only [sortKeys, firstUnshown?, Value.findLeaf?, unshown?, long, if_true]
  refine Config.findLeafUnder?_eq_some (fun entry inside => ?_)
    ⟨(key, .int number), mem_sortTable_iff.mpr
      ⟨_, List.mem_concat_self, rfl⟩, last⟩
  obtain ⟨held, among, rfl⟩ := mem_sortTable_iff.mp inside
  rcases List.mem_append.mp among with among | among
  · exact Or.inl (firstUnshown?_of_exact (exact_sortKeys (exact held among)))
  · obtain rfl := List.mem_singleton.mp among
    exact Or.inr last

end Json

end CommentOutline
