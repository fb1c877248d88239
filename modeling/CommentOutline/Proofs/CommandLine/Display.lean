import CommentOutline.Proofs.CommandLine.Delivery
import CommentOutline.Proofs.Config.Distinct
import CommentOutline.Proofs.Document.Stored
import CommentOutline.Proofs.Json.Canonical
import CommentOutline.Proofs.Outline.Exchange
import CommentOutline.Proofs.Toml.Distinct

set_option autoImplicit false

/-! The effective configuration as the program shows it. What is shown can be given back as a
setting, and it does not tell in which order the keys came. -/

namespace CommentOutline.CommandLine

open Config (Table Value)

/-- The arguments ask to show the configuration, and the effective one is this. -/
def AsksToShow (here : Surroundings) (arguments : List String) (config : Table) : Prop :=
  ∃ given, invocation arguments = .ok ⟨given, some .configShow⟩ ∧
    (here.config given (.ofString "")).result = .ok config

/-- The configuration is one of texts of characters, numbers that are not too long, truth values and
nulls. Its tables are as the reader of TOML is documented to give them, and no variable that is a
setting holds a half of a surrogate pair on its own: it is all one what such a half is read as. -/
structure Viewable (here : Surroundings) (config : Table) : Prop where
  keyedOnce : here.machine.readToml.KeyedOnce
  scalar : ∀ setting ∈ here.environment, (Config.target? setting.name).isSome = true →
    ∀ alone, Config.readSettingBy (Json.readBy? alone) setting.value =
      Config.readSetting setting.value
  isExact : (Value.table config).Exact

variable {here : Surroundings} {arguments : List String} {config : Table}

theorem Surroundings.config_keyedOnce {given : Given} {start : FileTree.Path}
    (reader : here.machine.readToml.KeyedOnce)
    (effective : (here.config given start).result = .ok config) :
    (Value.table config).KeyedOnce := by
  unfold Surroundings.config at effective
  dsimp only at effective
  split at effective
  · exact Config.get_keyedOnce reader effective
  · exact Config.get_keyedOnce reader effective
  · cases effective

theorem AsksToShow.keyedOnce (asked : AsksToShow here arguments config)
    (viewable : Viewable here config) : (Value.table config).KeyedOnce := by
  obtain ⟨given, -, effective⟩ := asked
  exact Surroundings.config_keyedOnce viewable.keyedOnce effective

theorem AsksToShow.readable (asked : AsksToShow here arguments config)
    (viewable : Viewable here config) : Json.Readable (Json.sortKeys (.table config)) :=
  Json.readable_of_exact (Json.exact_sortKeys viewable.isExact)
    (Json.keysAscending_sortKeys (asked.keyedOnce viewable)).keyedOnce

/-- The view is in ASCII, so that every standard output takes it. -/
theorem AsksToShow.output (asked : AsksToShow here arguments config)
    (viewable : Viewable here config) :
    (run here arguments).result = .ok 0 ∧ (run here arguments).output =
      Json.render (.ofIndent (some 2)) (Json.sortKeys (.table config)) ++ "\n" := by
  let view := Json.render (.ofIndent (some 2)) (Json.sortKeys (.table config))
  have ascii : ∀ c ∈ view.toList, c.toNat < 128 := by
    have chars : view.toList =
        Json.write Text.units (.ofIndent (some 2)) 0 (Json.sortKeys (.table config)) :=
      String.toList_ofList
    rw [chars]
    exact (asked.readable viewable).write_ascii _ 0
  obtain ⟨given, invoked, effective⟩ := asked
  have shown : showConfig config = .ok view := by
    simp only [showConfig,
      Json.firstUnshown?_of_exact (Json.exact_sortKeys viewable.isExact)]
    rfl
  have came : outcomeOf here (runConfigShow here given) = ⟨.ok 0, view ++ "\n", "", here.tree⟩ := by
    rw [← here.print_of_prints (here.prints_of_ascii ascii), outcomeOf, runConfigShow,
      Noted.result_andThen _ effective, shown]
    rfl
  obtain ⟨-, output, result⟩ := finish_eq here given.verbose (runConfigShow here given)
  rw [came] at output result
  simp only [run, invoked, runCommand]
  exact ⟨result.mpr rfl, output⟩

/-- A table that is shown on lines of their own is read back from a setting, whatever a half of a
surrogate pair on its own is read as. -/
theorem readSetting_shown (entries : Table) (readable : Json.Readable (.table entries))
    (alone : Nat → Char) :
    Config.readSettingBy (Json.readBy? alone)
        (Json.render (.ofIndent (some 2)) (.table entries) ++ "\n") = .table entries := by
  have opened : ∃ rest, (Json.render (.ofIndent (some 2)) (.table entries) ++ "\n").toList =
      '{' :: rest := by
    rw [String.toList_append, Json.render, Json.renderBy, String.toList_ofList]
    cases entries with
    | nil => exact ⟨_, rfl⟩
    | cons entry entries => exact ⟨_, by rw [Json.write_table_cons, List.cons_append]⟩
  obtain ⟨rest, opened⟩ := opened
  have back := readable.readBy?_render_append (.ofIndent (some 2)) alone
    (List.forall_mem_singleton.mpr (by decide : Json.isSpace '\n' = true))
  rw [Config.readSettingBy_of_brace _ opened, back, Option.getD_some]

/-- Showing a configuration without floats, dates and times, whose texts are of characters and whose
numbers are not too long, always succeeds. The text that is shown, read as a setting, is the
configuration up to the order of keys, with ascending keys in all its tables; and two runs show the
same text exactly if their configurations differ at most in the order of keys. -/
theorem run_shows_config (asked : AsksToShow here arguments config)
    (viewable : Viewable here config) :
    (run here arguments).result = .ok 0 ∧
      (∃ shown, (run here arguments).output = Json.render (.ofIndent (some 2)) shown ++ "\n" ∧
        Config.readSetting (run here arguments).output = shown ∧
        shown.KeysAscending ∧ shown.Reordered (.table config)) ∧
      ∀ here' arguments' config', AsksToShow here' arguments' config' → Viewable here' config' →
        ((run here' arguments').output = (run here arguments).output ↔
          (Value.table config').Reordered (.table config)) := by
  -- what any such run shows is read as the sorted configuration, so equal texts have equal sources
  have reads : ∀ {here arguments config}, AsksToShow here arguments config →
      Viewable here config →
      Config.readSetting (run here arguments).output = Json.sortKeys (.table config) := by
    intro here arguments config asked viewable
    rw [(asked.output viewable).2]
    exact readSetting_shown (Json.sortTable config) (asked.readable viewable) _
  have once := asked.keyedOnce viewable
  obtain ⟨success, output⟩ := asked.output viewable
  refine ⟨success, ⟨_, output, reads asked viewable, Json.keysAscending_sortKeys once,
    Json.reordered_sortKeys once⟩, fun here' arguments' config' asked' viewable' => ?_⟩
  rw [← Json.sortKeys_eq_sortKeys_iff (asked'.keyedOnce viewable') once]
  constructor
  · intro same
    rw [← reads asked' viewable', ← reads asked viewable, same]
  · intro same
    rw [output, (asked'.output viewable').2, same]

theorem exact_defaults : ∀ entry ∈ Config.defaults, entry.2.Exact := by
  simp only [Config.defaults, List.forall_mem_cons, List.not_mem_nil, false_implies,
    implies_true, and_true]
  refine ⟨.table ?_, .table (List.forall_mem_singleton.mpr (.text _))⟩
  simp only [List.forall_mem_cons, List.not_mem_nil, false_implies, implies_true, and_true,
    Value.Exact.text]
  exact .list (List.forall_mem_cons.mpr ⟨.text _, List.forall_mem_singleton.mpr (.text _)⟩)

def configured (machine : Machine) (text : String) : Surroundings :=
  ⟨⟨[([Config.fileName], .file (Text.Utf8.encode text.toList))]⟩, [], [], machine⟩

/-- Two orders of keys inside a list. -/
theorem run_shows_config_two_orders :
    let one := configured .standard "k = [\x7bb = -1, 'é' = '\"'\x7d]"
    let two := configured .standard "k = [\x7b'é' = '\"', b = -1\x7d]"
    let config (items : Table) : Table := Config.defaults ++ [("k", .list [.table items])]
    let first := config [("b", .int (-1)), ("é", .text "\"")]
    let second := config [("é", .text "\""), ("b", .int (-1))]
    AsksToShow one ["config", "show"] first ∧ AsksToShow two ["-v", "config", "show"] second ∧
      Viewable one first ∧ Viewable two second ∧
      (run one ["config", "show"]).result = .ok 0 ∧
      (run two ["-v", "config", "show"]).output = (run one ["config", "show"]).output ∧
      (Value.table second).Reordered (.table first) := by
  intro one two config first second
  have asked : AsksToShow one ["config", "show"] first :=
    ⟨⟨false, false, none, none, none, none⟩, by rfl, by decide +kernel⟩
  have asked' : AsksToShow two ["-v", "config", "show"] second :=
    ⟨⟨true, false, none, none, none, none⟩, by rfl, by decide +kernel⟩
  have viewable : ∀ (text : String) (items : Table), (∀ entry ∈ items, entry.2.Exact) →
      Viewable (configured .standard text) (config items) := by
    intro text items each
    refine ⟨fun _ _ read => Toml.read?_keyedOnce read, List.forall_mem_nil _, .table ?_⟩
    exact List.forall_mem_append.mpr ⟨exact_defaults, List.forall_mem_singleton.mpr
      (.list (List.forall_mem_singleton.mpr (.table each)))⟩
  have viewable_first : Viewable one first := viewable _ _ (List.forall_mem_cons.mpr
    ⟨.int (by decide +kernel), List.forall_mem_singleton.mpr (.text _)⟩)
  have viewable_second : Viewable two second := viewable _ _ (List.forall_mem_cons.mpr
    ⟨.text _, List.forall_mem_singleton.mpr (.int (by decide +kernel))⟩)
  have items : (Value.list [.table [("é", .text "\""), ("b", .int (-1))]]).Reordered
      (.list [.table [("b", .int (-1)), ("é", .text "\"")]]) := by
    refine .list rfl fun place item item' found found' => ?_
    rw [List.getElem?_singleton] at found found'
    obtain ⟨-, ⟨⟩⟩ := Option.ite_none_right_eq_some.mp found
    obtain ⟨-, ⟨⟩⟩ := Option.ite_none_right_eq_some.mp found'
    exact .of_perm (.swap _ _ _) (by decide)
  have reordered : (Value.table second).Reordered (.table first) :=
    items.concat Config.defaults "k"
  obtain ⟨success, -, alike⟩ := run_shows_config asked viewable_first
  exact ⟨asked, asked', viewable_first, viewable_second, success,
    (alike _ _ _ asked' viewable_second).mpr reordered, reordered⟩

/-! ### Numbers that are too long -/

theorem digits?_zeros (count value : Nat) :
    Text.Numeral.digits? 16 true value (List.replicate count '0') =
      some (Nat.pow 16 count * value) := by
  have zero : Text.Numeral.digit? 16 '0' = some 0 := by decide
  induction count generalizing value with
  | zero =>
      have one : Nat.pow 16 0 = 1 := rfl
      rw [List.replicate_zero, Text.Numeral.digits?, if_pos rfl, one, Nat.one_mul]
  | succ count ih =>
      have step : Nat.pow 16 (count + 1) = Nat.pow 16 count * 16 := rfl
      rw [List.replicate_succ, Text.Numeral.digits?, if_neg (by decide), zero]
      dsimp only
      rw [ih, Nat.add_zero, step, Nat.mul_assoc]

/-- The number that is a one and so many zeros in hexadecimal. -/
def sixteenTo (zeros : Nat) : Int := .ofNat (Nat.pow 16 zeros)

def numeral (zeros : Nat) : List Char := '0' :: 'x' :: '1' :: List.replicate zeros '0'

theorem mem_numeral {zeros : Nat} {c : Char} (inside : c ∈ numeral zeros) :
    c = '0' ∨ c = 'x' ∨ c = '1' := by
  simp only [numeral, List.mem_cons, List.mem_replicate] at inside
  tauto

theorem integer?_numeral (zeros : Nat) :
    Text.integer? 16 (numeral zeros) = some (sixteenTo zeros) := by
  have visible : ∀ c ∈ numeral zeros, Text.isBlank c = false := by
    intro c inside
    rcases mem_numeral inside with rfl | rfl | rfl <;> rfl
  have stripped : Text.stripChars (numeral zeros) = numeral zeros :=
    (Text.stripChars_eq_self_iff _).mpr ⟨fun c rest whole => visible c (whole ▸ List.mem_cons_self),
      fun start c whole => visible c (whole ▸ List.mem_concat_self)⟩
  have signless : Text.Numeral.sign (numeral zeros) = (false, numeral zeros) := rfl
  have value : Text.Numeral.unsigned? 16 (numeral zeros) = some (Nat.pow 16 zeros) := by
    show Text.Numeral.digits? 16 true 1 (List.replicate zeros '0') = _
    rw [digits?_zeros, Nat.mul_one]
  rw [Text.integer?, stripped, signless, value]
  rfl

/-- A reader of texts that do nothing but set `x` to a hexadecimal number. -/
def readHex : Config.TomlReader := fun text =>
  (Text.integer? 16 (text.toList.drop 4)).map fun number => [("x", .int number)]

theorem readHex_keyedOnce : readHex.KeyedOnce := by
  intro text table read
  obtain ⟨number, -, rfl⟩ := Option.map_eq_some_iff.mp read
  exact .table (List.nodup_singleton _) (List.forall_mem_singleton.mpr (.int number))

theorem effective_configured (machine : Machine) {text : String} {layer : Table}
    (read : machine.readToml (String.ofList (Text.unifyBreaks text.toList)) = some layer) :
    ((configured machine text).config ⟨false, false, none, none, none, none⟩
      (.ofString "")).result = .ok (Config.merge Config.defaults layer) := by
  have holds : (configured machine text).tree.HoldsText [] (.ofPlace [Config.fileName]) text := rfl
  have found : Config.find? (configured machine text).tree [] (.ofString "") =
      some (.ofPlace [Config.fileName]) := rfl
  have loaded := holds.readText_eq .none
  show (Config.get machine.readToml (configured machine text).tree [] [] none
    (.ofString "")).result = _
  unfold Config.get
  rw [Option.orElse, found]
  dsimp only
  unfold Config.load
  rw [loaded]
  dsimp only
  rw [read]
  rfl

theorem run_of_unshown {failure : Failure} {given : Given}
    (invoked : invocation arguments = .ok ⟨given, some .configShow⟩)
    (silent : given.verbose = false)
    (effective : (here.config given (.ofString "")).result = .ok config)
    (unshown : showConfig config = .error failure) :
    (run here arguments).result = .ok 1 ∧ (run here arguments).output = "" ∧
      (run here arguments).errors = "Error: " ++ failure.message ++ "\n" := by
  have came : outcomeOf here (runConfigShow here given) =
      ⟨.error failure, "", "", here.tree⟩ := by
    rw [outcomeOf, runConfigShow, Noted.result_andThen _ effective, unshown]
    rfl
  simp only [run, invoked, runCommand, finish, came, silent]
  exact ⟨rfl, rfl, rfl⟩

theorem readHex_zeros (zeros : Nat) :
    readHex (String.ofList (Text.unifyBreaks
        ("x = 0x1" ++ String.ofList (List.replicate zeros '0')).toList)) =
      some [("x", .int (sixteenTo zeros))] := by
  have text : ("x = 0x1" ++ String.ofList (List.replicate zeros '0')).toList =
      'x' :: ' ' :: '=' :: ' ' :: numeral zeros := by
    rw [String.toList_append]
    simp only [String.toList_ofList]
    rfl
  have unified : Text.unifyBreaks ('x' :: ' ' :: '=' :: ' ' :: numeral zeros) =
      'x' :: ' ' :: '=' :: ' ' :: numeral zeros := by
    refine Text.unifyBreaks_eq_self ?_
    simp only [List.forall_mem_cons]
    refine ⟨by decide, by decide, by decide, by decide, fun c inside => ?_⟩
    rcases mem_numeral inside with rfl | rfl | rfl <;> decide
  rw [text, unified, readHex, String.toList_ofList]
  show Option.map _ (Text.integer? 16 (numeral zeros)) = _
  rw [integer?_numeral, Option.map_some]

theorem merge_defaults_number (number : Int) :
    Config.merge Config.defaults [("x", .int number)] = Config.defaults ++ [("x", .int number)] :=
  rfl

theorem run_configured_long (readToml : Config.TomlReader) (text : String) {number : Int}
    (read : readToml (String.ofList (Text.unifyBreaks text.toList)) = some [("x", .int number)])
    (long : Text.isLong number = true) :
    let here := configured ⟨readToml, .none, .utf8⟩ text
    let config := Config.defaults ++ [("x", .int number)]
    AsksToShow here ["config", "show"] config ∧
      (run here ["config", "show"]).result = .ok 1 ∧
      Config.readSetting (run here ["config", "show"]).output ≠ .table config := by
  intro here config
  have effective := effective_configured ⟨readToml, .none, .utf8⟩ read
  rw [merge_defaults_number] at effective
  have unshown : showConfig config = .error .tooLong := by
    simp only [showConfig, config, Json.firstUnshown?_concat_long exact_defaults "x" long]
  have invoked : invocation ["config", "show"] =
      .ok ⟨⟨false, false, none, none, none, none⟩, some .configShow⟩ := rfl
  obtain ⟨failed, silent, -⟩ := run_of_unshown invoked rfl effective unshown
  refine ⟨⟨_, invoked, effective⟩, failed, ?_⟩
  rw [silent]
  intro same
  cases same

theorem run_hexadecimal (count : Nat) (long : Text.isLong (sixteenTo count) = true) :
    let here := configured ⟨readHex, .none, .utf8⟩
      ("x = 0x1" ++ String.ofList (List.replicate count '0'))
    let config := Config.defaults ++ [("x", .int (sixteenTo count))]
    AsksToShow here ["config", "show"] config ∧
      (run here ["config", "show"]).result = .ok 1 ∧
      Config.readSetting (run here ["config", "show"]).output ≠ .table config :=
  run_configured_long readHex _ (readHex_zeros count) long

/-- Where the view fails. A number of 4303 digits is not shown at all; and a text of two halves of
surrogate pairs is shown as a pair is, and read back as one character. -/
theorem not_shown_faithfully :
    readHex.KeyedOnce ∧
      (let here := configured ⟨readHex, .none, .utf8⟩
          ("x = 0x1" ++ String.ofList (List.replicate 3573 '0'))
        let config := Config.defaults ++ [("x", .int (sixteenTo 3573))]
        AsksToShow here ["config", "show"] config ∧
          (run here ["config", "show"]).result = .ok 1 ∧
          Config.readSetting (run here ["config", "show"]).output ≠ .table config) ∧
      let standIns : Text.StandIns := [('\ue000', 0x3D), ('\ue001', 0x480)]
      Json.read? (String.ofList (Json.writeText (fun c => (standIns.point c).units)
        "\ue000\ue001")) = some (.text (String.singleton (Char.ofNat 0x1F480))) := by
  refine ⟨readHex_keyedOnce, run_hexadecimal 3573 ?_, ?_⟩
  · decide +kernel
  · decide +kernel

end CommentOutline.CommandLine
