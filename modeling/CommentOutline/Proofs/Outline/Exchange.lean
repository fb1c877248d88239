import CommentOutline.Config.Environment
import CommentOutline.Outline.Export
import CommentOutline.Proofs.Json.RoundTrip

set_option autoImplicit false

/-! Outlines as JSON text. An outline is exported in ASCII, and a setting that holds the text of an
export is the outline as data again. -/

namespace CommentOutline

namespace Config

/-- A text that opens a table is no truth value, so it counts as JSON if it is JSON. -/
theorem readSettingBy_of_brace (read? : String → Option Value) {text : String} {rest : List Char}
    (opened : text.toList = '{' :: rest) :
    readSettingBy read? text = (read? text).getD (.text text) := by
  have brace : Text.Lowercase.pairLower '{' = '{' := by decide +kernel
  have lowered : ∃ more, Text.lowercase text = String.ofList ('{' :: more) := by
    refine ⟨Text.Lowercase.lowerFrom ['{'] rest, ?_⟩
    rw [Text.lowercase, opened, Text.Lowercase.lowerFrom, if_neg (by decide), if_neg (by decide),
      brace]
    rfl
  obtain ⟨more, same⟩ := lowered
  have other : ∀ word : String, word.toList.head? ≠ some '{' → Text.lowercase text ≠ word := by
    rintro word first rfl
    rw [same, String.toList_ofList] at first
    exact first rfl
  have opens : opensJson text = true := by
    rw [opensJson, opened]
    rfl
  simp only [readSettingBy, other "true" (by decide), other "false" (by decide), if_false, opens,
    if_true]

end Config

namespace Outline

open Json (Readable)

mutual

theorem toValue_readable : (node : Node) → Readable (toValue node)
  | ⟨label, line, key, children⟩ => by
      have keys : ["label", "line", "key", "children"].Nodup := by decide
      rw [toValue]
      refine .table keys ?_
      simp only [List.forall_mem_cons, List.not_mem_nil, false_implies, implies_true, and_true]
      exact ⟨.text label, .int line, .text key, .list (toValues_readable children)⟩

theorem toValues_readable : (nodes : List Node) → ∀ value ∈ toValues nodes, Readable value
  | [] => fun _ member => nomatch member
  | node :: nodes => by
      rw [toValues, List.forall_mem_cons]
      exact ⟨toValue_readable node, toValues_readable nodes⟩

end

theorem forestValue_readable (forest : List Node) : Readable (forestValue forest) := by
  have keys : ["roots", "node_count"].Nodup := by decide
  refine .table keys ?_
  simp only [List.forall_mem_cons, List.not_mem_nil, false_implies, implies_true, and_true]
  exact ⟨.list (toValues_readable forest), .int _⟩

/-- The export of an outline is in ASCII at every indent, and the reader of settings, given the
export, finds the outline as data. -/
theorem readSetting_renderJson (forest : List Node) (indent : Option Int) :
    (∀ c ∈ (renderJson indent forest).toList, c.toNat < 128) ∧
      Config.readSetting (renderJson indent forest) = forestValue forest := by
  have readable := forestValue_readable forest
  have written : (renderJson indent forest).toList =
      Json.write Text.units (.ofIndent indent) 0 (forestValue forest) := String.toList_ofList
  constructor
  · rw [written]
    exact readable.write_ascii _ 0
  · have opened := written.trans (Json.write_table_cons _ 0 _ _)
    rw [Config.readSetting, Config.readSettingBy_of_brace _ opened, renderJson,
      readable.read?_render, Option.getD_some]

end Outline

end CommentOutline
