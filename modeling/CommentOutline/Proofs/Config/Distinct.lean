import CommentOutline.Config.Source
import CommentOutline.Proofs.Config.Layers

set_option autoImplicit false

/-! An effective configuration names every key once, in all its tables, if the reader of TOML gives
such tables. The defaults do so, and what is read from a variable; layering and putting keep it. -/

namespace CommentOutline

namespace Json

open Config (Value Table)

variable {cs : List Char} {alone : Nat → Char}

theorem keyedOnce_readUnsigned {negative : Bool} {read : Value × List Char}
    (found : readUnsigned negative cs = some read) : read.1.KeyedOnce := by
  obtain ⟨-, found⟩ := Option.ite_none_left_eq_some.mp found
  rcases ite_eq_iff.mp found with ⟨-, same⟩ | ⟨-, same⟩
  · cases same
    exact .int _
  · cases same
    exact .float _

theorem keyedOnce_readNumber {read : Value × List Char} (found : readNumber cs = some read) :
    read.1.KeyedOnce := by
  unfold readNumber at found
  split at found
  all_goals exact keyedOnce_readUnsigned found

mutual

theorem keyedOnce_readValue : (fuel : Nat) → {cs : List Char} → {read : Value × List Char} →
    readValue alone fuel cs = some read → read.1.KeyedOnce
  | 0, _, _, found => by
      unfold readValue at found
      cases found
  | fuel + 1, cs, read, found => by
      unfold readValue at found
      split at found
      · obtain ⟨text, -, rfl⟩ := Option.map_eq_some_iff.mp found
        exact .text _
      · split at found
        · cases found
          exact .list (List.forall_mem_nil _)
        · obtain ⟨items, inside, rfl⟩ := Option.map_eq_some_iff.mp found
          exact .list (keyedOnce_readItems fuel inside)
      · split at found
        · cases found
          exact Value.keyedOnce_empty
        · obtain ⟨entries, inside, rfl⟩ := Option.map_eq_some_iff.mp found
          exact keyedOnce_readEntries fuel Value.keyedOnce_empty inside
      · cases found
        exact .null
      · cases found
        exact .bool true
      · cases found
        exact .bool false
      · cases found
        exact .float _
      · cases found
        exact .float _
      · cases found
        exact .float _
      · exact keyedOnce_readNumber found

theorem keyedOnce_readItems : (fuel : Nat) → {cs : List Char} →
    {read : List Value × List Char} → readItems alone fuel cs = some read →
    ∀ item ∈ read.1, item.KeyedOnce
  | 0, _, _, found => by
      rw [readItems] at found
      cases found
  | fuel + 1, cs, read, found => by
      unfold readItems at found
      split at found
      · cases found
      · rename_i item rest here
        have once := keyedOnce_readValue fuel here
        split at found
        · cases found
          exact List.forall_mem_singleton.mpr once
        · obtain ⟨items, later, rfl⟩ := Option.map_eq_some_iff.mp found
          exact List.forall_mem_cons.mpr ⟨once, keyedOnce_readItems fuel later⟩
        · cases found

theorem keyedOnce_readEntries : (fuel : Nat) → {table : Table} → {cs : List Char} →
    {read : Table × List Char} → (Value.table table).KeyedOnce →
    readEntries alone fuel table cs = some read → (Value.table read.1).KeyedOnce
  | 0, _, _, _, _, found => by
      rw [readEntries] at found
      cases found
  | fuel + 1, table, cs, read, once, found => by
      unfold readEntries at found
      split at found
      · split at found
        · cases found
        · rename_i key afterKey _
          split at found
          · split at found
            · cases found
            · rename_i value afterValue here
              have grown := once.put (keyedOnce_readValue fuel here) key
              split at found
              · cases found
                exact grown
              · exact keyedOnce_readEntries fuel grown found
              · cases found
          · cases found
      · cases found

end

theorem readBy?_keyedOnce {text : String} {value : Value} (read : readBy? alone text = some value) :
    value.KeyedOnce := by
  unfold readBy? at read
  dsimp only at read
  split at read
  · rename_i found rest here
    obtain ⟨-, same⟩ := Option.ite_none_right_eq_some.mp read
    cases same
    exact keyedOnce_readValue _ here
  · cases read

end Json

namespace Config

open FileTree (Path Place Tree)

def TomlReader.KeyedOnce (readToml : TomlReader) : Prop :=
  ∀ text table, readToml text = some table → (Value.table table).KeyedOnce

variable {config : Table} {readToml : TomlReader} {tree : Tree} {base : Place}
variable {environment : List Variable}

theorem keyedOnce_readSetting (text : String) : (readSetting text).KeyedOnce := by
  unfold readSetting readSettingBy
  dsimp only
  split
  · exact .bool true
  · split
    · exact .bool false
    · split
      · cases read : Json.read? text with
        | none => exact .text text
        | some value => exact Json.readBy?_keyedOnce read
      · exact .text text

theorem keyedOnce_getD (once : (Value.table config).KeyedOnce) (key : String) {fallback : Value}
    (otherwise : fallback.KeyedOnce) : (config.getD key fallback).KeyedOnce := by
  unfold Table.getD
  cases found : config.get? key with
  | none => exact otherwise
  | some value => exact once.get? found

theorem keyedOnce_override (once : (Value.table config).KeyedOnce) (setting : Variable) :
    (Value.table (override config setting).1).KeyedOnce := by
  unfold override
  split
  · exact once
  · rename_i word key _
    split
    · rename_i entries found
      have onceEntries : (Value.table entries).KeyedOnce :=
        found ▸ keyedOnce_getD once word Value.keyedOnce_empty
      exact once.put (onceEntries.put (keyedOnce_readSetting setting.value) key) word
    · exact once

theorem keyedOnce_overrideAll (once : (Value.table config).KeyedOnce)
    (environment : List Variable) : (Value.table (overrideAll config environment).1).KeyedOnce := by
  induction environment generalizing config with
  | nil => exact once
  | cons setting environment ih => exact ih (keyedOnce_override once setting)

theorem keyedOnce_defaults : (Value.table defaults).KeyedOnce := by
  refine .table (by decide) (List.forall_mem_cons.mpr ⟨.table (by decide) ?_,
    List.forall_mem_singleton.mpr (.table (by decide) (List.forall_mem_singleton.mpr (.text _)))⟩)
  simp only [List.forall_mem_cons, List.not_mem_nil, false_implies, implies_true, and_true,
    Value.KeyedOnce.text]
  refine .list ?_
  simp only [List.forall_mem_cons, List.not_mem_nil, false_implies, implies_true, and_true,
    Value.KeyedOnce.text]

theorem keyedOnce_load {path : Path} (reader : readToml.KeyedOnce)
    (loaded : (load readToml tree base environment path).result = .ok config) :
    (Value.table config).KeyedOnce := by
  unfold load at loaded
  split at loaded
  · cases loaded
  · split at loaded
    · cases loaded
    · rename_i layer read
      cases loaded
      exact keyedOnce_overrideAll (keyedOnce_defaults.merge (reader _ layer read)) environment

theorem get_keyedOnce {path : Option Path} {start : Path} (reader : readToml.KeyedOnce)
    (effective : (get readToml tree base environment path start).result = .ok config) :
    (Value.table config).KeyedOnce := by
  unfold get at effective
  split at effective
  · exact keyedOnce_load reader effective
  · cases effective
    exact keyedOnce_overrideAll keyedOnce_defaults environment

end Config

end CommentOutline
