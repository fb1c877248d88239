import CommentOutline.Config.Merge
import CommentOutline.Proofs.Config.Tables

set_option autoImplicit false

/-! Layers of configuration. What a merged table has under a key is settled by what the two layers
have there, and its keys are those of the lower layer and behind them the new ones of the upper
one. The laws of layering are laws of both, one level of tables at a time. -/

namespace CommentOutline.Config

/-! ### Keys -/

/-- Keys, and behind them those of another list that are new. -/
def joinKeys (front keys : List String) : List String :=
  front ++ keys.filter fun key => decide (key ∉ front)

theorem joinKeys_self (keys : List String) : joinKeys keys keys = keys := by
  have none_new : keys.filter (fun key => decide (key ∉ keys)) = [] := by
    rw [List.filter_eq_nil_iff]
    intro key inside
    simpa using inside
  rw [joinKeys, none_new, List.append_nil]

theorem joinKeys_assoc (one two three : List String) :
    joinKeys (joinKeys one two) three = joinKeys one (joinKeys two three) := by
  unfold joinKeys
  rw [List.filter_append, List.filter_filter, List.append_assoc]
  congr 2
  apply List.filter_congr
  intro key _
  rw [Bool.eq_iff_iff]
  simp only [List.mem_append, List.mem_filter, Bool.and_eq_true, decide_eq_true_eq]
  tauto

theorem joinKeys_cons {front keys : List String} {key : String} (new : key ∉ keys) :
    joinKeys front (key :: keys) =
      joinKeys (if key ∈ front then front else front ++ [key]) keys := by
  unfold joinKeys
  by_cases known : key ∈ front
  · rw [if_pos known, List.filter_cons_of_neg (by simpa using known)]
  · rw [if_neg known, List.filter_cons_of_pos (by simpa using known), List.append_assoc,
      List.singleton_append]
    congr 2
    apply List.filter_congr
    intro other inside
    have differs : other ≠ key := fun same => new (same ▸ inside)
    simp only [List.mem_append, List.mem_singleton, differs, or_false]

theorem nodup_joinKeys {front keys : List String} (once : front.Nodup) (onceMore : keys.Nodup) :
    (joinKeys front keys).Nodup := by
  refine List.nodup_append.mpr ⟨once, onceMore.filter _, ?_⟩
  rintro key inside other behind rfl
  exact of_decide_eq_true (List.mem_filter.mp behind).2 inside

variable {value : Value} {a b c base entries : Table}

theorem keys_merge (once : (entries.map Prod.fst).Nodup) :
    (merge base entries).map Prod.fst = joinKeys (base.map Prod.fst) (entries.map Prod.fst) := by
  induction entries generalizing base with
  | nil => rw [merge, List.map_nil, joinKeys, List.filter_nil, List.append_nil]
  | cons entry entries ih =>
      rw [List.map_cons, List.nodup_cons] at once
      rw [merge, ih once.2, List.map_cons, joinKeys_cons once.1]
      congr 1
      exact keys_putEntry base entry.1 _

/-! ### Values -/

/-- What two layers make of the values that they have in one place. -/
def overlay (below : Option Value) : Option Value → Option Value
  | none => below
  | some value => some (mergeValue below value)

theorem get?_merge (base : Table) (once : (entries.map Prod.fst).Nodup) (key : String) :
    (merge base entries).get? key = overlay (base.get? key) (entries.lookup key) := by
  induction entries generalizing base with
  | nil => rfl
  | cons entry entries ih =>
      obtain ⟨name, value⟩ := entry
      rw [List.map_cons, List.nodup_cons] at once
      rw [merge, ih _ once.2, Table.get?_put, lookup_cons_if]
      by_cases same : key = name
      · subst name
        rw [if_pos rfl, if_pos rfl, lookup_eq_none once.1]
        rfl
      · rw [if_neg same, if_neg same]

theorem mergeValue_none (value : Value) : mergeValue none value = value := by
  cases value <;> rfl

theorem mergeValue_table_cases (below : Option Value) (entries : Table) :
    (∃ base : Table, below = some (.table base) ∧
        mergeValue below (.table entries) = .table (merge base entries)) ∨
      mergeValue below (.table entries) = .table entries := by
  match below with
  | some (.table base) => exact Or.inl ⟨base, rfl, rfl⟩
  | none | some .null | some (.bool _) | some (.int _) | some (.float _) | some (.text _)
  | some (.moment _) | some (.list _) => exact Or.inr rfl

theorem Value.KeyedOnce.keys (once : (Value.table entries).KeyedOnce) :
    (entries.map Prod.fst).Nodup := by
  cases once with
  | table keys _ => exact keys

theorem Value.KeyedOnce.get? (once : (Value.table entries).KeyedOnce) {key : String}
    (found : entries.lookup key = some value) : value.KeyedOnce := by
  cases once with
  | table _ each => exact each _ (mem_of_lookup found)

theorem merge_eq_of_get? (once : (b.map Prod.fst).Nodup) {table : Table}
    (onceTable : (table.map Prod.fst).Nodup)
    (keys : joinKeys (a.map Prod.fst) (b.map Prod.fst) = table.map Prod.fst)
    (same : ∀ key, overlay (a.get? key) (b.get? key) = table.get? key) : merge a b = table := by
  symm
  refine eq_of_lookup onceTable ((keys_merge once).trans keys).symm fun key => ?_
  exact ((get?_merge a once key).trans (same key)).symm

theorem keyedOnce_mergeValue (once : value.KeyedOnce) {below : Option Value}
    (onceBelow : ∀ held ∈ below, held.KeyedOnce) : (mergeValue below value).KeyedOnce := by
  induction once generalizing below with
  | null => exact .null
  | bool value => exact .bool value
  | int value => exact .int value
  | float value => exact .float value
  | text value => exact .text value
  | moment value => exact .moment value
  | list each => exact .list each
  | @table entries once each ih =>
      rcases mergeValue_table_cases below entries with ⟨base, rfl, merged⟩ | replaced
      · have onceBase : (Value.table base).KeyedOnce := onceBelow _ rfl
        have keys : ((merge base entries).map Prod.fst).Nodup := by
          rw [keys_merge once]
          exact nodup_joinKeys onceBase.keys once
        rw [merged]
        refine .table keys fun entry inside => ?_
        have found := get?_merge base once entry.1
        rw [Table.get?, lookup_of_mem keys inside] at found
        cases upper : entries.lookup entry.1 with
        | none =>
            rw [upper, overlay] at found
            exact onceBase.get? found.symm
        | some value =>
            rw [upper, overlay, Option.some.injEq] at found
            rw [found]
            exact ih _ (mem_of_lookup upper) fun held lower => onceBase.get? lower
      · rw [replaced]
        exact .table once each

theorem Value.KeyedOnce.merge (onceA : (Value.table a).KeyedOnce) (onceB : (Value.table b).KeyedOnce) :
    (Value.table (merge a b)).KeyedOnce := by
  have onceBelow : ∀ held ∈ some (Value.table a), held.KeyedOnce := by
    rintro _ ⟨⟩
    exact onceA
  exact keyedOnce_mergeValue onceB onceBelow

/-! ### A layer over itself -/

theorem mergeValue_self (once : value.KeyedOnce) : mergeValue (some value) value = value := by
  induction once with
  | null | bool | int | float | text | moment | list => rfl
  | @table entries once each ih =>
      show Value.table (merge entries entries) = .table entries
      congr 1
      refine merge_eq_of_get? once once (joinKeys_self _) fun key => ?_
      cases found : entries.get? key with
      | none => rfl
      | some value => rw [overlay, ih _ (mem_of_lookup found)]

theorem overlay_self {held : Option Value} (once : ∀ value ∈ held, value.KeyedOnce) :
    overlay held held = held := by
  cases held with
  | none => rfl
  | some value => rw [overlay, mergeValue_self (once value rfl)]

theorem mergeValue_again (once : value.KeyedOnce) {below : Option Value}
    (onceBelow : ∀ held ∈ below, held.KeyedOnce) :
    mergeValue (some (mergeValue below value)) value = mergeValue below value := by
  induction once generalizing below with
  | null | bool | int | float | text | moment | list => rfl
  | @table entries once each ih =>
      rcases mergeValue_table_cases below entries with ⟨base, rfl, merged⟩ | replaced
      · have onceBase : (Value.table base).KeyedOnce := onceBelow _ rfl
        have onceMerged := onceBase.merge (.table once each)
        rw [merged]
        show Value.table (merge (merge base entries) entries) = .table (merge base entries)
        congr 1
        refine merge_eq_of_get? once onceMerged.keys ?_ fun key => ?_
        · rw [keys_merge once, joinKeys_assoc, joinKeys_self]
        · rw [get?_merge _ once]
          show overlay (overlay _ (entries.lookup key)) (entries.lookup key) = _
          cases upper : entries.lookup key with
          | none => rfl
          | some value =>
              have onceHeld : ∀ held ∈ base.get? key, held.KeyedOnce :=
                fun held lower => onceBase.get? lower
              exact congrArg some (ih _ (mem_of_lookup upper) onceHeld)
      · rw [replaced]
        exact mergeValue_self (.table once each)

theorem mergeValue_before (once : value.KeyedOnce) {below : Option Value}
    (onceBelow : ∀ held ∈ below, held.KeyedOnce) :
    mergeValue below (mergeValue below value) = mergeValue below value := by
  induction once generalizing below with
  | null | bool | int | float | text | moment | list => rfl
  | @table entries once each ih =>
      rcases mergeValue_table_cases below entries with ⟨base, rfl, merged⟩ | replaced
      · have onceBase : (Value.table base).KeyedOnce := onceBelow _ rfl
        have onceMerged := onceBase.merge (.table once each)
        rw [merged]
        show Value.table (merge base (merge base entries)) = .table (merge base entries)
        congr 1
        refine merge_eq_of_get? onceMerged.keys onceMerged.keys ?_ fun key => ?_
        · rw [keys_merge once, ← joinKeys_assoc, joinKeys_self]
        · rw [get?_merge _ once]
          show overlay _ (overlay _ (entries.lookup key)) = overlay _ (entries.lookup key)
          cases upper : entries.lookup key with
          | none => exact overlay_self fun held lower => onceBase.get? lower
          | some value =>
              have onceHeld : ∀ held ∈ base.get? key, held.KeyedOnce :=
                fun held lower => onceBase.get? lower
              exact congrArg some (ih _ (mem_of_lookup upper) onceHeld)
      · rw [replaced, replaced]

/-! ### Three layers -/

/-- At every path of keys, the values that there are have all tables or none is one. -/
def Agree (values : List Value) : Prop :=
  ∀ path : List String, (∀ value ∈ values.filterMap fun value => value.at? path, value.IsTable) ∨
    ∀ value ∈ values.filterMap fun value => value.at? path, ¬ value.IsTable

theorem agree_tables_iff (tables : List Table) :
    Agree (tables.map Value.table) ↔
      ∀ key, Agree (tables.filterMap fun table => table.get? key) := by
  have below : ∀ key path, (tables.map Value.table).filterMap (fun value => value.at? (key :: path)) =
      (tables.filterMap fun table => table.get? key).filterMap fun value => value.at? path := by
    intro key path
    rw [List.filterMap_map, List.filterMap_filterMap]
    rfl
  constructor
  · intro agree key path
    rw [← below]
    exact agree (key :: path)
  · intro each path
    cases path with
    | nil =>
        refine Or.inl fun value inside => ?_
        obtain ⟨held, there, same⟩ := List.mem_filterMap.mp inside
        obtain ⟨table, -, rfl⟩ := List.mem_map.mp there
        exact ⟨table, (Option.some.inj same).symm⟩
    | cons key path =>
        rw [below]
        exact each key path

theorem agree_of_plain {tables : List Table} {key : String}
    (plain : ∀ table ∈ tables, ∀ entry ∈ table, entry.1 = key → ¬ entry.2.IsTable) :
    Agree (tables.filterMap fun table => table.get? key) := by
  intro path
  refine Or.inr fun value inside => ?_
  obtain ⟨held, there, found⟩ := List.mem_filterMap.mp inside
  obtain ⟨table, listed, under⟩ := List.mem_filterMap.mp there
  have noTable := plain table listed _ (mem_of_lookup under) rfl
  cases path with
  | nil =>
      cases found
      exact noTable
  | cons key path =>
      cases held with
      | table entries => exact absurd ⟨entries, rfl⟩ noTable
      | null | bool | int | float | text | moment | list => cases found

theorem Agree.tables {lower middle : Value} (agree : Agree [lower, middle, .table c]) :
    ∃ a b : Table, lower = .table a ∧ middle = .table b := by
  rcases agree [] with tables | plain
  · obtain ⟨a, rfl⟩ := tables lower List.mem_cons_self
    obtain ⟨b, rfl⟩ := tables middle (List.mem_cons_of_mem _ List.mem_cons_self)
    exact ⟨a, b, rfl, rfl⟩
  · have last : Value.table c ∈ [lower, middle, .table c].filterMap fun value => value.at? [] :=
      List.mem_cons_of_mem _ (List.mem_cons_of_mem _ List.mem_cons_self)
    exact absurd ⟨c, rfl⟩ (plain _ last)

/-- Where a layer has nothing, the other two are merged on either side. -/
theorem overlay_assoc (one two three : Option Value)
    (all : ∀ lower middle upper, one = some lower → two = some middle → three = some upper →
      mergeValue (some (mergeValue (some lower) middle)) upper =
        mergeValue (some lower) (mergeValue (some middle) upper)) :
    overlay (overlay one two) three = overlay one (overlay two three) := by
  match one, two, three with
  | _, _, none => rfl
  | _, none, some upper => rw [overlay, overlay, overlay, overlay, mergeValue_none]
  | none, some middle, some upper => simp only [overlay, mergeValue_none]
  | some lower, some middle, some upper => exact congrArg some (all lower middle upper rfl rfl rfl)

theorem mergeValue_assoc (once : value.KeyedOnce) {lower middle : Value}
    (onceLower : lower.KeyedOnce) (onceMiddle : middle.KeyedOnce)
    (agree : Agree [lower, middle, value]) :
    mergeValue (some (mergeValue (some lower) middle)) value =
      mergeValue (some lower) (mergeValue (some middle) value) := by
  induction once generalizing lower middle with
  | null | bool | int | float | text | moment | list => rfl
  | @table c once each ih =>
      obtain ⟨a, b, rfl, rfl⟩ := agree.tables
      have onceC : (Value.table c).KeyedOnce := .table once each
      have onceUpper := onceMiddle.merge onceC
      show Value.table (merge (merge a b) c) = .table (merge a (merge b c))
      congr 1
      refine merge_eq_of_get? once (onceLower.merge onceUpper).keys ?_ fun key => ?_
      · rw [keys_merge onceMiddle.keys, keys_merge onceUpper.keys, keys_merge once, joinKeys_assoc]
      · rw [get?_merge _ onceUpper.keys, get?_merge _ onceMiddle.keys]
        show overlay (overlay _ (b.get? key)) (c.get? key) = overlay _ ((merge b c).get? key)
        rw [get?_merge _ once]
        refine overlay_assoc _ _ _ fun first second third inA inB inC => ?_
        have below := (agree_tables_iff [a, b, c]).mp agree key
        simp only [List.filterMap_cons, inA, inB, inC, List.filterMap_nil] at below
        exact ih _ (mem_of_lookup inC) (onceLower.get? inA) (onceMiddle.get? inB) below

/-- Layers are merged lawfully: the empty table changes nothing on either side, a layer over itself
or a second time changes nothing, and of three layers any two may be merged first, if at every path
of keys the values that they have are all tables or none of them is one. All of this is so with the
order of the keys. -/
theorem merge_lawful (a b c : Table) (onceA : (Value.table a).KeyedOnce)
    (onceB : (Value.table b).KeyedOnce) (onceC : (Value.table c).KeyedOnce) :
    merge [] b = b ∧ merge a [] = a ∧ merge a a = a ∧
      merge (merge a b) b = merge a b ∧ merge a (merge a b) = merge a b ∧
      (Agree [.table a, .table b, .table c] → merge (merge a b) c = merge a (merge b c)) := by
  have below : ∀ value ∈ some (Value.table a), value.KeyedOnce := by
    rintro value ⟨⟩
    exact onceA
  refine ⟨?_, rfl, ?_, ?_, ?_, fun agree => ?_⟩
  · refine merge_eq_of_get? onceB.keys onceB.keys ?_ fun key => ?_
    · rw [joinKeys, List.map_nil, List.nil_append, List.filter_eq_self]
      exact fun key _ => rfl
    · cases b.get? key with
      | none => rfl
      | some value => exact congrArg some (mergeValue_none value)
  · exact Value.table.inj (mergeValue_self onceA)
  · exact Value.table.inj (mergeValue_again onceB below)
  · exact Value.table.inj (mergeValue_before onceB below)
  · exact Value.table.inj (mergeValue_assoc onceC onceA onceB agree)

/-- A table below one key in all three layers, with keys in different orders, and a value that is no
table below another key in two of them. -/
theorem merge_lawful_nested :
    let a : Table := [("t", .table [("x", .int 1)])]
    let b : Table := [("k", .null), ("t", .table [("y", .int 2)])]
    let c : Table := [("t", .table [("y", .int 4), ("x", .int 3)]), ("k", .text "v")]
    (Value.table a).KeyedOnce ∧ (Value.table b).KeyedOnce ∧ (Value.table c).KeyedOnce ∧
      Agree [.table a, .table b, .table c] ∧
      merge (merge a b) c = merge a (merge b c) ∧
      merge a (merge b c) =
        [("t", .table [("x", .int 3), ("y", .int 4)]), ("k", .text "v")] := by
  intro a b c
  have onceA : (Value.table a).KeyedOnce :=
    .table (by decide) (List.forall_mem_singleton.mpr
      (.table (by decide) (List.forall_mem_singleton.mpr (.int 1))))
  have onceB : (Value.table b).KeyedOnce :=
    .table (by decide) (List.forall_mem_cons.mpr ⟨.null, List.forall_mem_singleton.mpr
      (.table (by decide) (List.forall_mem_singleton.mpr (.int 2)))⟩)
  have onceC : (Value.table c).KeyedOnce :=
    .table (by decide) (List.forall_mem_cons.mpr ⟨.table (by decide) (List.forall_mem_cons.mpr
      ⟨.int 4, List.forall_mem_singleton.mpr (.int 3)⟩), List.forall_mem_singleton.mpr (.text "v")⟩)
  have agree : Agree [.table a, .table b, .table c] := by
    refine (agree_tables_iff [a, b, c]).mpr fun key => ?_
    by_cases shared : key = "t"
    · subst key
      refine (agree_tables_iff [[("x", .int 1)], [("y", .int 2)],
        [("y", .int 4), ("x", .int 3)]]).mpr fun key => agree_of_plain ?_
      simp only [List.forall_mem_cons, List.not_mem_nil, Value.IsTable, reduceCtorEq,
        exists_false, not_false_eq_true, false_implies, implies_true, and_true]
    · apply agree_of_plain
      simp only [a, b, c, List.forall_mem_cons, List.not_mem_nil, Value.IsTable, Ne.symm shared,
        reduceCtorEq, exists_false, not_false_eq_true, false_implies, implies_true, and_true]
  exact ⟨onceA, onceB, onceC, agree, (merge_lawful a b c onceA onceB onceC).2.2.2.2.2 agree,
    by decide⟩

/-- Without agreement it matters which two layers are merged first. -/
example : merge (merge [("t", .table [("x", .int 1)])] [("t", .null)]) [("t", .table [])] ≠
    merge [("t", .table [("x", .int 1)])] (merge [("t", .null)] [("t", .table [])]) := by
  decide

end CommentOutline.Config
