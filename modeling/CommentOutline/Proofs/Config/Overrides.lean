import Mathlib.Data.List.TakeWhile
import CommentOutline.Config.Environment
import CommentOutline.Proofs.Config.Tables

set_option autoImplicit false

/-! Settings from the environment. One variable changes at most the one setting that it targets,
and from that it follows what a whole environment changes: every setting has the value of the last
variable that targets it. Two environments that agree in this for each setting give the same
configuration. -/

namespace CommentOutline.Config

/-- The variable names a section and a key in it: behind the lead stand the two words, in any case,
and the first underscore between them. -/
def Variable.Targets (setting : Variable) (word key : String) : Prop :=
  ∃ rest, setting.name = environmentLead ++ rest ∧ Text.lowercase rest = word ++ "_" ++ key ∧
    '_' ∉ word.toList ∧ word ≠ "" ∧ key ≠ ""

/-! ### Names of variables -/

theorem cut_eq_iff {cs word key : List Char} (some_key : key ≠ []) :
    (cs.takeWhile fun c => c ≠ '_') = word ∧ cs.drop (word.length + 1) = key ↔
      cs = word ++ '_' :: key ∧ '_' ∉ word := by
  constructor
  · rintro ⟨front, back⟩
    have whole := List.takeWhile_append_dropWhile (p := fun c => decide (c ≠ '_')) (l := cs)
    rw [front] at whole
    cases behind : cs.dropWhile fun c => c ≠ '_' with
    | nil =>
        rw [behind, List.append_nil] at whole
        rw [← whole, List.drop_eq_nil_of_le (Nat.le_succ _)] at back
        exact absurd back.symm some_key
    | cons c rest =>
        have stops : c = '_' := by
          have first := List.head?_dropWhile_not (fun c => decide (c ≠ '_')) cs
          rw [behind] at first
          simpa using first
        rw [behind, stops] at whole
        have after : rest = key := by
          rw [← back, ← whole, List.drop_append, List.drop_eq_nil_of_le (Nat.le_succ _)]
          simp
        refine ⟨by rw [← whole, after], fun inside => ?_⟩
        rw [← front] at inside
        simpa using List.mem_takeWhile_imp inside
  · rintro ⟨rfl, clear⟩
    have front : (word ++ '_' :: key).takeWhile (fun c => c ≠ '_') = word := by
      rw [List.takeWhile_append_of_pos]
      · simp
      · intro c inside
        simpa using fun same : c = '_' => clear (same ▸ inside)
    refine ⟨front, ?_⟩
    rw [List.drop_append, List.drop_eq_nil_of_le (Nat.le_succ _)]
    simp

theorem target?_lead (rest word key : String) :
    target? (environmentLead ++ rest) = some (word, key) ↔
      Text.lowercase rest = word ++ "_" ++ key ∧ '_' ∉ word.toList ∧ word ≠ "" ∧ key ≠ "" := by
  have leads : environmentLead.toList.isPrefixOf (environmentLead ++ rest).toList = true := by
    rw [String.toList_append]
    exact List.isPrefixOf_iff_prefix.mpr (List.prefix_append _ _)
  have behind : (environmentLead ++ rest).toList.drop environmentLead.length = rest.toList := by
    rw [String.toList_append, ← String.length_toList, List.drop_left]
  have written : Text.lowercase rest = word ++ "_" ++ key ↔
      (Text.lowercase rest).toList = word.toList ++ '_' :: key.toList := by
    rw [← String.toList_inj, String.toList_append, String.toList_append, List.append_assoc]
    rfl
  have wordSet : word ≠ "" ↔ word.toList ≠ [] := String.toList_eq_nil_iff.not.symm
  have keySet : key ≠ "" ↔ key.toList ≠ [] := String.toList_eq_nil_iff.not.symm
  rw [target?, if_pos leads, behind, String.ofList_toList, written, wordSet, keySet]
  dsimp only
  generalize (Text.lowercase rest).toList = cs
  split
  · rename_i lacks
    refine iff_of_false (fun found => nomatch found) ?_
    rintro ⟨cut, clear, some_word, some_key⟩
    obtain ⟨front, back⟩ := (cut_eq_iff some_key).mpr ⟨cut, clear⟩
    rw [front, back, Bool.or_eq_true, List.isEmpty_iff, List.isEmpty_iff] at lacks
    exact lacks.elim some_word some_key
  · rename_i both
    rw [Bool.or_eq_true, not_or, List.isEmpty_iff, List.isEmpty_iff] at both
    rw [Option.some.injEq, Prod.mk.injEq, ← String.toList_inj, String.toList_ofList,
      ← String.toList_inj, String.toList_ofList]
    constructor
    · rintro ⟨front, back⟩
      rw [back, front] at both
      rw [front] at back
      obtain ⟨cut, clear⟩ := (cut_eq_iff both.2).mp ⟨front, back⟩
      exact ⟨cut, clear, both⟩
    · rintro ⟨cut, clear, -, some_key⟩
      obtain ⟨front, back⟩ := (cut_eq_iff some_key).mpr ⟨cut, clear⟩
      rw [front]
      exact ⟨rfl, back⟩

theorem target?_eq_some_iff (setting : Variable) (word key : String) :
    target? setting.name = some (word, key) ↔ setting.Targets word key := by
  constructor
  · intro found
    by_cases leads : environmentLead.toList.isPrefixOf setting.name.toList = true
    · obtain ⟨rest, whole⟩ := List.isPrefixOf_iff_prefix.mp leads
      have named : setting.name = environmentLead ++ String.ofList rest := by
        rw [← String.toList_inj, String.toList_append, String.toList_ofList, whole]
      rw [named, target?_lead] at found
      exact ⟨_, named, found⟩
    · rw [target?, if_neg leads] at found
      cases found
  · rintro ⟨rest, named, lowered⟩
    rw [named, target?_lead]
    exact lowered

instance (setting : Variable) (word key : String) : Decidable (setting.Targets word key) :=
  decidable_of_iff _ (target?_eq_some_iff setting word key)

theorem Variable.Targets.unique {setting : Variable} {word key word' key' : String}
    (targets : setting.Targets word key) (targets' : setting.Targets word' key') :
    word' = word ∧ key' = key := by
  rw [← target?_eq_some_iff] at targets targets'
  rw [targets] at targets'
  cases targets'
  exact ⟨rfl, rfl⟩

/-! ### One variable -/

variable {config between after : Table} {environment first second : List Variable}
variable {setting : Variable} {word key : String}

def lastFor? (environment : List Variable) (word key : String) : Option Value :=
  (environment.filter fun setting => setting.Targets word key).getLast?.map fun setting =>
    readSetting setting.value

theorem lastFor?_append (first second : List Variable) (word key : String) :
    lastFor? (first ++ second) word key = (lastFor? second word key).or (lastFor? first word key) := by
  rw [lastFor?, List.filter_append, List.getLast?_append, Option.map_or]
  rfl

theorem lastFor?_singleton (setting : Variable) (word key : String) :
    lastFor? [setting] word key =
      if setting.Targets word key then some (readSetting setting.value) else none := by
  by_cases targets : setting.Targets word key
  · rw [lastFor?, List.filter_cons_of_pos (by simpa using targets), if_pos targets]
    rfl
  · rw [lastFor?, List.filter_cons_of_neg (by simpa using targets), if_neg targets]
    rfl

/-- Settings can be put into the section: it is missing, or it is a table. -/
def Table.Takes (config : Table) (word : String) : Prop :=
  ∀ value, config.get? word = some value → value.IsTable

theorem at?_pair (config : Table) (word key : String) :
    (Value.table config).at? [word, key] =
      (config.get? word).bind fun held => held.at? [key] := by
  rw [Value.at?, Table.get?]

theorem at?_pair_of_table {entries : Table} (found : config.get? word = some (.table entries))
    (key : String) : (Value.table config).at? [word, key] = entries.get? key := by
  rw [at?_pair, found, Option.bind_some, Value.at?, Table.get?]
  simp only [Value.at?, Option.bind_fun_some]

theorem at?_pair_of_none (missing : config.get? word = none) (key : String) :
    (Value.table config).at? [word, key] = none := by
  rw [at?_pair, missing, Option.bind_none]

/-- What a configuration becomes under an environment. Sections that are no tables stay; in every
other one a setting has the value of the last variable that targets it, or the one it had; sections
are made for settings only; and what was there stays in front. -/
structure Overridden (config : Table) (environment : List Variable) (after : Table) : Prop where
  kept : ∀ word value, config.get? word = some value → ¬ value.IsTable →
    after.get? word = some value
  setting : ∀ word, config.Takes word → ∀ key, (Value.table after).at? [word, key] =
    (lastFor? environment word key).or ((Value.table config).at? [word, key])
  takes : ∀ word, config.Takes word → after.Takes word
  sections : ∀ word, (after.get? word).isSome = true ↔
    (config.get? word).isSome = true ∨ ∃ setting ∈ environment, ∃ key, setting.Targets word key
  order : config.map Prod.fst <+: after.map Prod.fst
  orderBelow : ∀ (word : String) (entries : Table), config.get? word = some (.table entries) →
    ∃ later : Table, after.get? word = some (.table later) ∧
      entries.map Prod.fst <+: later.map Prod.fst

theorem keys_front_putEntry {α : Type} (entries : List (String × α)) (key : String) (item : α) :
    entries.map Prod.fst <+: (putEntry entries key item).map Prod.fst := by
  rw [keys_putEntry]
  split
  · exact List.prefix_rfl
  · exact List.prefix_append _ _

theorem overridden_nil (config : Table) : Overridden config [] config where
  kept := fun _ _ found _ => found
  setting := fun _ _ _ => rfl
  takes := fun _ takes => takes
  sections := fun word => by simp
  order := List.prefix_rfl
  orderBelow := fun _ entries found => ⟨entries, found, List.prefix_rfl⟩

theorem Overridden.append (earlier : Overridden config first between)
    (later : Overridden between second after) : Overridden config (first ++ second) after where
  kept := fun word value found plain =>
    later.kept word value (earlier.kept word value found plain) plain
  setting := by
    intro word takes key
    rw [later.setting word (earlier.takes word takes) key, earlier.setting word takes key,
      lastFor?_append, Option.or_assoc]
  takes := fun word takes => later.takes word (earlier.takes word takes)
  sections := by
    intro word
    rw [later.sections, earlier.sections, or_assoc]
    simp only [List.mem_append, or_and_right, exists_or]
  order := earlier.order.trans later.order
  orderBelow := by
    intro word entries found
    obtain ⟨middle, there, front⟩ := earlier.orderBelow word entries found
    obtain ⟨last, here, further⟩ := later.orderBelow word middle there
    exact ⟨last, here, front.trans further⟩

theorem overridden_of_shut (shut : ∀ word key, setting.Targets word key → ¬ config.Takes word) :
    Overridden config [setting] config where
  kept := fun _ _ found _ => found
  setting := by
    intro word takes key
    rw [lastFor?_singleton, if_neg fun targets => shut word key targets takes, Option.none_or]
  takes := fun _ takes => takes
  sections := by
    intro word
    refine (or_iff_left_of_imp ?_).symm
    rintro ⟨other, alone, key, targets⟩
    rw [List.mem_singleton.mp alone] at targets
    have known := shut word key targets
    rw [Table.Takes, not_forall] at known
    obtain ⟨value, found⟩ := known
    rw [Classical.not_imp] at found
    rw [found.1]
    rfl
  order := List.prefix_rfl
  orderBelow := fun _ entries found => ⟨entries, found, List.prefix_rfl⟩

theorem overridden_of_put {entries : Table} (targets : setting.Targets word key)
    (held : config.get? word = some (.table entries) ∨ config.get? word = none ∧ entries = []) :
    Overridden config [setting]
      (config.put word (.table (entries.put key (readSetting setting.value)))) := by
  have here := Table.get?_put config word word (.table (entries.put key (readSetting setting.value)))
  rw [if_pos rfl] at here
  have elsewhere : ∀ other, other ≠ word →
      (config.put word (.table (entries.put key (readSetting setting.value)))).get? other =
        config.get? other := by
    intro other differs
    rw [Table.get?_put, if_neg differs]
  have before : ∀ name, (Value.table config).at? [word, name] = entries.get? name := by
    intro name
    rcases held with found | ⟨missing, rfl⟩
    · exact at?_pair_of_table found name
    · exact at?_pair_of_none missing name
  refine ⟨?_, ?_, ?_, ?_, keys_front_putEntry _ _ _, ?_⟩
  · intro other value found plain
    have differs : other ≠ word := by
      rintro rfl
      rcases held with table | ⟨missing, -⟩
      · exact plain ⟨entries, Option.some.inj (found.symm.trans table)⟩
      · exact nomatch found.symm.trans missing
    rw [elsewhere other differs]
    exact found
  · intro other takes name
    rw [lastFor?_singleton]
    by_cases same : other = word
    · subst other
      rw [at?_pair_of_table here, before, Table.get?_put]
      by_cases sameKey : name = key
      · subst name
        rw [if_pos rfl, if_pos targets, Option.some_or]
      · rw [if_neg sameKey, if_neg fun also => sameKey (targets.unique also).2, Option.none_or]
    · rw [if_neg fun also => same (targets.unique also).1, Option.none_or, at?_pair, at?_pair,
        elsewhere other same]
  · intro other takes value found
    by_cases same : other = word
    · subst other
      exact ⟨_, Option.some.inj (found.symm.trans here)⟩
    · rw [elsewhere other same] at found
      exact takes value found
  · intro other
    by_cases same : other = word
    · subst other
      rw [here]
      exact iff_of_true rfl (Or.inr ⟨setting, List.mem_cons_self, key, targets⟩)
    · rw [elsewhere other same]
      refine (or_iff_left ?_).symm
      rintro ⟨alone, listed, name, also⟩
      rw [List.mem_singleton.mp listed] at also
      exact same (targets.unique also).1
  · intro other table found
    by_cases same : other = word
    · subst other
      rcases held with there | ⟨missing, -⟩
      · cases found.symm.trans there
        exact ⟨_, here, keys_front_putEntry _ _ _⟩
      · exact nomatch found.symm.trans missing
    · exact ⟨table, (elsewhere other same).trans found, List.prefix_rfl⟩

theorem overridden_override (config : Table) (setting : Variable) :
    Overridden config [setting] (override config setting).1 := by
  unfold override
  split
  · rename_i none_meant
    refine overridden_of_shut fun word key targets => ?_
    rw [← target?_eq_some_iff, none_meant] at targets
    cases targets
  · rename_i word key meant
    have targets := (target?_eq_some_iff setting word key).mp meant
    split
    · rename_i entries there
      refine overridden_of_put targets ?_
      rw [Table.getD] at there
      cases found : config.get? word with
      | none =>
          rw [found, Option.getD_none] at there
          exact Or.inr ⟨rfl, (Value.table.inj there).symm⟩
      | some value =>
          rw [found, Option.getD_some] at there
          exact Or.inl (congrArg some there)
    · rename_i other no_table
      refine overridden_of_shut fun name key' also takes => ?_
      obtain ⟨rfl, -⟩ := targets.unique also
      rw [Table.getD] at no_table
      cases found : config.get? name with
      | none => exact no_table [] (by rw [found, Option.getD_none])
      | some value =>
          obtain ⟨entries, rfl⟩ := takes value found
          exact no_table entries (by rw [found, Option.getD_some])

theorem overridden_overrideAll (config : Table) (environment : List Variable) :
    Overridden config environment (overrideAll config environment).1 := by
  induction environment generalizing config with
  | nil => exact overridden_nil config
  | cons setting environment ih =>
      exact (overridden_override config setting).append (ih (override config setting).1)

/-! ### Two environments -/

theorem exists_targets_iff (same : ∀ word key,
      first.filter (fun setting => setting.Targets word key) =
        second.filter fun setting => setting.Targets word key) (word : String) :
    (∃ setting ∈ first, ∃ key, setting.Targets word key) ↔
      ∃ setting ∈ second, ∃ key, setting.Targets word key := by
  have among : ∀ environment : List Variable,
      (∃ setting ∈ environment, ∃ key, setting.Targets word key) ↔
        ∃ key, environment.filter (fun setting => setting.Targets word key) ≠ [] := by
    intro environment
    constructor
    · rintro ⟨setting, listed, key, targets⟩
      exact ⟨key, List.ne_nil_of_mem (List.mem_filter.mpr ⟨listed, decide_eq_true targets⟩)⟩
    · rintro ⟨key, some_variable⟩
      obtain ⟨setting, member⟩ := List.exists_mem_of_ne_nil _ some_variable
      obtain ⟨listed, targets⟩ := List.mem_filter.mp member
      exact ⟨setting, listed, key, of_decide_eq_true targets⟩
  rw [among, among]
  exact exists_congr fun key => by rw [same word key]

/-- What an environment makes of a configuration is settled, but for the order of keys, by the last
variable for each setting. -/
theorem Overridden.reordered {one two : Table} (overFirst : Overridden config first one)
    (overSecond : Overridden config second two)
    (same : ∀ word key, first.filter (fun setting => setting.Targets word key) =
      second.filter fun setting => setting.Targets word key) :
    (Value.table one).Reordered (.table two) := by
  refine .table (fun word => ?_) fun word held held' found found' => ?_
  · rw [← lookup_isSome_iff, ← lookup_isSome_iff]
    exact (overFirst.sections word).trans ((or_congr_right (exists_targets_iff same word)).trans
      (overSecond.sections word).symm)
  by_cases takes : config.Takes word
  · obtain ⟨entries, rfl⟩ := overFirst.takes word takes held found
    obtain ⟨entries', rfl⟩ := overSecond.takes word takes held' found'
    have settings : ∀ key, entries.lookup key = entries'.lookup key := by
      intro key
      have inFirst := overFirst.setting word takes key
      have inSecond := overSecond.setting word takes key
      rw [at?_pair_of_table found] at inFirst
      rw [at?_pair_of_table found', lastFor?, ← same word key] at inSecond
      exact inFirst.trans inSecond.symm
    exact .of_lookup settings
  · rw [Table.Takes, not_forall] at takes
    obtain ⟨value, there⟩ := takes
    obtain ⟨inConfig, plain⟩ := Classical.not_imp.mp there
    have one_value := Option.some.inj (found.symm.trans (overFirst.kept word value inConfig plain))
    have two_value := Option.some.inj (found'.symm.trans (overSecond.kept word value inConfig plain))
    rw [one_value, two_value]
    exact .refl value

/-- Every environment changes a configuration at the settings that its variables target and nowhere
else, and for each of them the last variable counts. So two orders of an environment in which the
variables for each setting come in the same order make the same of it but for the order of keys. -/
theorem overrideAll_overridden (config : Table) :
    (∀ environment, Overridden config environment (overrideAll config environment).1) ∧
      ∀ first second : List Variable,
        (∀ word key, first.filter (fun setting => setting.Targets word key) =
          second.filter fun setting => setting.Targets word key) →
        (Value.table (overrideAll config first).1).Reordered
          (.table (overrideAll config second).1) :=
  ⟨overridden_overrideAll config, fun first second same =>
    (overridden_overrideAll config first).reordered (overridden_overrideAll config second) same⟩

/-- Two variables for one setting, whose names differ in case, and one for another setting between
them or before them. -/
theorem overrideAll_overridden_two_orders :
    (∀ word key,
      [⟨"COMMENT_EXPLORER_A_K", "1"⟩, ⟨"COMMENT_EXPLORER_B_K", "2"⟩,
          ⟨"COMMENT_EXPLORER_a_k", "3"⟩].filter
        (fun setting : Variable => setting.Targets word key) =
      [⟨"COMMENT_EXPLORER_B_K", "2"⟩, ⟨"COMMENT_EXPLORER_A_K", "1"⟩,
          ⟨"COMMENT_EXPLORER_a_k", "3"⟩].filter
        fun setting : Variable => setting.Targets word key) ∧
    (Value.table (overrideAll []
      [⟨"COMMENT_EXPLORER_A_K", "1"⟩, ⟨"COMMENT_EXPLORER_B_K", "2"⟩,
        ⟨"COMMENT_EXPLORER_a_k", "3"⟩]).1).Reordered
      (.table (overrideAll []
        [⟨"COMMENT_EXPLORER_B_K", "2"⟩, ⟨"COMMENT_EXPLORER_A_K", "1"⟩,
          ⟨"COMMENT_EXPLORER_a_k", "3"⟩]).1) := by
  have one : target? "COMMENT_EXPLORER_A_K" = some ("a", "k") := by decide +kernel
  have other : target? "COMMENT_EXPLORER_B_K" = some ("b", "k") := by decide +kernel
  refine (fun same => ⟨same, (overrideAll_overridden []).2 _ _ same⟩) fun word key => ?_
  simp only [List.filter_cons, decide_eq_true_eq]
  by_cases targets : Variable.Targets ⟨"COMMENT_EXPLORER_A_K", "1"⟩ word key
  · have apart : ¬ Variable.Targets ⟨"COMMENT_EXPLORER_B_K", "2"⟩ word key := by
      rw [← target?_eq_some_iff] at targets ⊢
      rw [one] at targets
      rw [other, ← targets]
      decide
    rw [if_neg apart, if_neg apart]
  · rw [if_neg targets, if_neg targets]

end CommentOutline.Config
