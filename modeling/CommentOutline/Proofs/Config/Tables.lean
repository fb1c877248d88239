import Mathlib.Data.List.Nodup
import CommentOutline.Config.Value

set_option autoImplicit false

/-! Tables as finite maps with an order of keys. A table without a repeated key is settled by its
list of keys and by what it has under each of them. -/

namespace CommentOutline.Config

/-- Values in which no table has a key twice, at any depth. -/
inductive Value.KeyedOnce : Value → Prop
  | null : KeyedOnce .null
  | bool (value : Bool) : KeyedOnce (.bool value)
  | int (value : Int) : KeyedOnce (.int value)
  | float (value : Decimal.Binary64) : KeyedOnce (.float value)
  | text (value : String) : KeyedOnce (.text value)
  | moment (value : Moment) : KeyedOnce (.moment value)
  | list {items : List Value} : (∀ item ∈ items, KeyedOnce item) → KeyedOnce (.list items)
  | table {entries : Table} : (entries.map Prod.fst).Nodup →
      (∀ entry ∈ entries, KeyedOnce entry.2) → KeyedOnce (.table entries)

def Value.IsTable (value : Value) : Prop := ∃ entries, value = .table entries

def Value.at? : Value → (path : List String) → Option Value
  | value, [] => some value
  | .table entries, key :: path => (entries.lookup key).bind fun value => value.at? path
  | _, _ :: _ => none

/-- Values that differ at most in the order of keys, in tables at any depth. -/
inductive Value.Reordered : Value → Value → Prop
  | refl (value : Value) : Reordered value value
  | list {items items' : List Value} : items.length = items'.length →
      (∀ (place : Nat) (item item' : Value), items[place]? = some item →
        items'[place]? = some item' → Reordered item item') →
      Reordered (.list items) (.list items')
  | table {entries entries' : Table} :
      (∀ key, key ∈ entries.map Prod.fst ↔ key ∈ entries'.map Prod.fst) →
      (∀ key value value', entries.lookup key = some value → entries'.lookup key = some value' →
        Reordered value value') →
      Reordered (.table entries) (.table entries')

/-! ### Looking up -/

section

variable {κ α : Type} [BEq κ] [LawfulBEq κ] {entries : List (κ × α)} {key : κ} {item : α}

theorem lookup_isSome_iff : (entries.lookup key).isSome = true ↔ key ∈ entries.map Prod.fst := by
  rw [List.lookup_isSome_iff, List.mem_map]
  refine exists_congr fun entry => and_congr_right fun _ => ?_
  rw [beq_iff_eq, eq_comm]

theorem lookup_eq_none (new : key ∉ entries.map Prod.fst) : entries.lookup key = none := by
  rw [← Option.not_isSome_iff_eq_none, lookup_isSome_iff]
  exact new

theorem notMem_of_lookup (nothing : entries.lookup key = none) : key ∉ entries.map Prod.fst := by
  rw [← lookup_isSome_iff, nothing]
  exact Bool.false_ne_true

theorem mem_of_lookup (found : entries.lookup key = some item) : (key, item) ∈ entries := by
  obtain ⟨front, back, rfl, -⟩ := List.lookup_eq_some_iff.mp found
  exact List.mem_append_right _ List.mem_cons_self

theorem lookup_of_mem (once : (entries.map Prod.fst).Nodup) (inside : (key, item) ∈ entries) :
    entries.lookup key = some item := by
  obtain ⟨front, back, rfl⟩ := List.append_of_mem inside
  rw [List.map_append, List.map_cons, List.nodup_append] at once
  rw [List.lookup_append, lookup_eq_none fun before => once.2.2 key before key
    List.mem_cons_self rfl, Option.none_or, List.lookup_cons_self]

end

variable {α : Type} {entries : List (String × α)} {key other name : String} {item held : α}

theorem lookup_cons_if :
    ((name, held) :: entries).lookup key = if key = name then some held else entries.lookup key := by
  rw [List.lookup_cons]
  by_cases same : key = name
  · rw [if_pos same, beq_iff_eq.mpr same]
  · rw [if_neg same, beq_eq_false_iff_ne.mpr same]

/-- Tables with the same keys in the same order, and the same value under each of them, are one. -/
theorem eq_of_lookup {first second : List (String × α)} (once : (first.map Prod.fst).Nodup)
    (keys : first.map Prod.fst = second.map Prod.fst)
    (same : ∀ key, first.lookup key = second.lookup key) : first = second := by
  induction first generalizing second with
  | nil => exact (List.map_eq_nil_iff.mp keys.symm).symm
  | cons entry first ih =>
      obtain ⟨name, held⟩ := entry
      cases second with
      | nil => cases keys
      | cons entry' second =>
          obtain ⟨name', held'⟩ := entry'
          rw [List.map_cons, List.map_cons, List.cons.injEq] at keys
          obtain ⟨rfl, keys⟩ : name = name' ∧ _ := keys
          rw [List.map_cons, List.nodup_cons] at once
          have here := same name
          rw [List.lookup_cons_self, List.lookup_cons_self, Option.some.injEq] at here
          subst held'
          congr 1
          refine ih once.2 keys fun key => ?_
          by_cases first_key : key = name
          · subst key
            rw [lookup_eq_none once.1, lookup_eq_none (keys ▸ once.1)]
          · have further := same key
            rwa [lookup_cons_if, lookup_cons_if, if_neg first_key, if_neg first_key] at further

/-! ### Putting -/

theorem lookup_putEntry (entries : List (String × α)) (key other : String) (item : α) :
    (putEntry entries key item).lookup other =
      if other = key then some item else entries.lookup other := by
  induction entries with
  | nil => exact lookup_cons_if
  | cons entry entries ih =>
      obtain ⟨name, held⟩ := entry
      rw [putEntry]
      by_cases here : name = key
      · subst name
        rw [if_pos rfl, lookup_cons_if, lookup_cons_if]
        split <;> rfl
      · rw [if_neg here, lookup_cons_if, lookup_cons_if, ih]
        by_cases found : other = name
        · subst other
          rw [if_pos rfl, if_neg here, if_pos rfl]
        · rw [if_neg found, if_neg found]

theorem Table.get?_put (table : Table) (key other : String) (value : Value) :
    (table.put key value).get? other = if other = key then some value else table.get? other :=
  lookup_putEntry table key other value

theorem keys_putEntry (entries : List (String × α)) (key : String) (item : α) :
    (putEntry entries key item).map Prod.fst =
      if key ∈ entries.map Prod.fst then entries.map Prod.fst
      else entries.map Prod.fst ++ [key] := by
  induction entries with
  | nil => rfl
  | cons entry entries ih =>
      rw [putEntry]
      by_cases here : entry.1 = key
      · rw [if_pos here, if_pos (here ▸ List.mem_cons_self), List.map_cons, List.map_cons, here]
      · have behind : key ∈ (entry :: entries).map Prod.fst ↔ key ∈ entries.map Prod.fst :=
          List.mem_cons.trans (or_iff_right (Ne.symm here))
        rw [if_neg here, List.map_cons, ih]
        simp only [behind]
        split <;> rfl

theorem mem_putEntry {entry : String × α} (inside : entry ∈ putEntry entries key item) :
    entry = (key, item) ∨ entry ∈ entries := by
  induction entries with
  | nil => exact Or.inl (List.mem_singleton.mp inside)
  | cons first entries ih =>
      rw [putEntry] at inside
      split at inside
      · exact (List.mem_cons.mp inside).imp_right (List.mem_cons_of_mem _)
      · rcases List.mem_cons.mp inside with rfl | behind
        · exact Or.inr List.mem_cons_self
        · exact (ih behind).imp_right (List.mem_cons_of_mem _)

theorem nodup_keys_putEntry (once : (entries.map Prod.fst).Nodup) (key : String) (item : α) :
    ((putEntry entries key item).map Prod.fst).Nodup := by
  rw [keys_putEntry]
  split
  · exact once
  · rename_i new
    exact List.nodup_append.mpr ⟨once, List.nodup_singleton key, fun name inside other alone same =>
      new (List.mem_singleton.mp alone ▸ same ▸ inside)⟩

theorem Value.keyedOnce_empty : (Value.table []).KeyedOnce :=
  .table List.nodup_nil (List.forall_mem_nil _)

theorem Value.KeyedOnce.put {table : Table} {value : Value} (once : (Value.table table).KeyedOnce)
    (onceValue : value.KeyedOnce) (key : String) :
    (Value.table (table.put key value)).KeyedOnce := by
  cases once with
  | table keys each =>
      refine .table (nodup_keys_putEntry keys key value) fun entry inside => ?_
      rcases mem_putEntry inside with rfl | before
      · exact onceValue
      · exact each entry before

/-! ### Reordering -/

theorem exists_lookup {entries entries' : List (String × α)} {key : String} {item : α}
    (keys : ∀ key, key ∈ entries.map Prod.fst ↔ key ∈ entries'.map Prod.fst)
    (found : entries.lookup key = some item) : ∃ item', entries'.lookup key = some item' := by
  rw [← Option.isSome_iff_exists, lookup_isSome_iff, ← keys, ← lookup_isSome_iff, found]
  rfl

theorem lookup_eq_of_keys {entries entries' : List (String × α)}
    (keys : ∀ key, key ∈ entries.map Prod.fst ↔ key ∈ entries'.map Prod.fst)
    (each : ∀ key item item', entries.lookup key = some item →
      entries'.lookup key = some item' → item = item') (key : String) :
    entries.lookup key = entries'.lookup key := by
  cases found : entries.lookup key with
  | none =>
      rw [lookup_eq_none]
      rw [← keys]
      exact notMem_of_lookup found
  | some item =>
      obtain ⟨item', found'⟩ := exists_lookup keys found
      rw [found', each key item item' found found']

theorem lookup_perm {entries entries' : List (String × α)} (perm : entries.Perm entries')
    (once : (entries.map Prod.fst).Nodup) (key : String) :
    entries.lookup key = entries'.lookup key := by
  have names := perm.map Prod.fst
  refine lookup_eq_of_keys (fun key => names.mem_iff) (fun key item item' found found' => ?_) key
  have there := lookup_of_mem (names.nodup_iff.mp once) (perm.mem_iff.mp (mem_of_lookup found))
  exact Option.some.inj (there.symm.trans found')

namespace Value.Reordered

variable {a b c : Value}

theorem of_lookup {entries entries' : Table}
    (same : ∀ key, entries.lookup key = entries'.lookup key) :
    (Value.table entries).Reordered (.table entries') := by
  refine .table (fun key => ?_) fun key value value' found found' => ?_
  · rw [← lookup_isSome_iff, ← lookup_isSome_iff, same key]
  · rw [same key, found', Option.some.injEq] at found
    exact found ▸ .refl value'

theorem of_perm {entries entries' : Table} (perm : entries.Perm entries')
    (once : (entries.map Prod.fst).Nodup) :
    (Value.table entries).Reordered (.table entries') :=
  of_lookup (lookup_perm perm once)

theorem concat (reordered : a.Reordered b) (front : Table) (key : String) :
    (Value.table (front ++ [(key, a)])).Reordered (.table (front ++ [(key, b)])) := by
  have keys : (front ++ [(key, a)]).map Prod.fst = (front ++ [(key, b)]).map Prod.fst := by
    rw [List.map_append, List.map_append, List.map_singleton, List.map_singleton]
  refine .table (fun name => keys ▸ Iff.rfl) fun name value value' found found' => ?_
  rw [List.lookup_append, Option.or_eq_some_iff, lookup_cons_if] at found found'
  rcases found with inFront | ⟨new, found⟩
  · rcases found' with inFront' | ⟨new, -⟩
    · exact Option.some.inj (inFront.symm.trans inFront') ▸ .refl value
    · cases new.symm.trans inFront
  · rcases found' with inFront | ⟨-, found'⟩
    · cases new.symm.trans inFront
    · obtain ⟨rfl, same⟩ := Option.ite_some_none_eq_some.mp found
      obtain ⟨-, same'⟩ := Option.ite_some_none_eq_some.mp found'
      exact same ▸ same' ▸ reordered

theorem symm (reordered : a.Reordered b) : b.Reordered a := by
  induction reordered with
  | refl value => exact .refl value
  | list length _ ih =>
      exact .list length.symm fun place item item' found found' => ih place item' item found' found
  | table keys _ ih =>
      exact .table (fun key => (keys key).symm) fun key value value' found found' =>
        ih key value' value found' found

theorem trans (reordered : a.Reordered b) (further : b.Reordered c) : a.Reordered c := by
  induction reordered generalizing c with
  | refl value => exact further
  | @list items items' length each ih =>
      cases further with
      | refl => exact .list length each
      | @list _ items'' length' each' =>
          refine .list (length.trans length') fun place item item'' found found'' => ?_
          obtain ⟨inside, -⟩ := List.getElem?_eq_some_iff.mp found
          have found' := List.getElem?_eq_getElem (length ▸ inside)
          exact ih place item _ found found' (each' place _ item'' found' found'')
  | @table entries entries' keys each ih =>
      cases further with
      | refl => exact .table keys each
      | @table _ entries'' keys' each' =>
          refine .table (fun key => (keys key).trans (keys' key)) ?_
          intro key value value'' found found''
          obtain ⟨value', found'⟩ := exists_lookup keys found
          exact ih key value value' found found' (each' key value' value'' found' found'')

end Value.Reordered

end CommentOutline.Config
