import CommentOutline.Proofs.Comment.Payload
import CommentOutline.Proofs.Comment.Scanning
import CommentOutline.Proofs.Outline.Cells
import CommentOutline.Proofs.Outline.Legible
import CommentOutline.Proofs.Provider.Lasting

set_option autoImplicit false

/-! Providers and their renderings. Every outline that a provider ever shows has labels that are
payloads or segments of payloads, so its renderings tell its labels and lines in their places. -/

namespace CommentOutline

open Comment (Settings Style)
open Host (Lasting Request)
open Outline

def Outline.LegibleAt (label : String) (line : Int) : Prop := Legible label ∧ 0 ≤ line

theorem Outline.closedUnderSegments_legibleAt : Builder.ClosedUnderSegments LegibleAt :=
  fun _ _ legible _ _ member => ⟨legible.1.segment member, legible.2⟩

theorem Document.legibleAt_of_mem_scan (document : Document) (style : Style) :
    ∀ pair ∈ document.scan style, LegibleAt pair.1 pair.2 := by
  intro pair member
  obtain ⟨nonneg, line, -, read⟩ := (document.mem_scan_iff style pair.1 pair.2).mp member
  obtain ⟨oneLine, trimmed⟩ := Comment.trimmed_of_matchLine? read
  exact ⟨⟨oneLine, trimmed⟩, nonneg⟩

namespace Provider

variable {Listener : Type} {provider : Provider Listener}

theorem within_parse (within : provider.builder.Within LegibleAt) :
    provider.parse.1.builder.Within LegibleAt := by
  have built := within.build closedUnderSegments_legibleAt
    (provider.document.legibleAt_of_mem_scan provider.style)
  unfold parse
  split
  · rename_i builder done
    rw [done] at built
    exact built
  · rename_i builder error failed
    rw [failed] at built
    exact built

theorem within_create {document : Document} {settings : Settings} {hasNavigator : Bool}
    (created : create document settings hasNavigator = .ok provider) :
    provider.builder.Within LegibleAt := by
  unfold create at created
  split at created
  · cases created
  · rename_i style _
    let fresh : Provider Listener :=
      ⟨document, style, hasNavigator, .start style.separator, 0, .silent⟩
    have parsed : fresh.parse.1.builder.Within LegibleAt :=
      within_parse (Builder.within_start LegibleAt style.separator)
    split at created
    · rename_i next answer
      rw [Except.ok.injEq] at created
      rw [answer, created] at parsed
      exact parsed
    · cases created

theorem lasting_within : Lasting fun provider => provider.builder.Within LegibleAt where
  setText := fun _ _ within => within
  parse := fun _ within => within_parse within
  subscribe := fun _ _ within => within
  unsubscribe := fun _ _ within => within

end Provider

/-- Outlines with legible labels have one text, and one list in markdown, exactly if they have the
same labels and lines in the same places. Only the empty outline has an empty rendering, and what a
provider of a text shows is legible after every session. -/
theorem renderings_eq_iff :
    (∀ forest forest' : List Node, (∀ brief ∈ walkAll forest, Legible brief.label) →
      (∀ brief ∈ walkAll forest', Legible brief.label) →
      (renderText forest = renderText forest' ↔ unkeyAll forest = unkeyAll forest') ∧
        (renderMarkdown forest = renderMarkdown forest' ↔ unkeyAll forest = unkeyAll forest')) ∧
    (∀ forest : List Node, (renderText forest = "" ↔ forest = []) ∧
      (renderMarkdown forest = "" ↔ forest = [])) ∧
    ∀ (text : String) (settings : Settings) (hasNavigator : Bool) (provider : Provider String),
      Provider.create (.ofText text) settings hasNavigator = .ok provider →
      ∀ (reactions : String → List Request) (depth : Nat) (requests : List Request),
        ∀ brief ∈ walkAll ((Host.start provider).after reactions depth requests).provider.roots,
          Legible brief.label ∧ 0 ≤ brief.line := by
  refine ⟨?_, ?_, ?_⟩
  · intro forest forest' legible legible'
    rw [renderText_eq, renderText_eq, renderMarkdown_eq, renderMarkdown_eq]
    exact ⟨format_text.rendering_eq_iff legible legible',
      format_markdown.rendering_eq_iff legible legible'⟩
  · intro forest
    rw [renderText_eq, renderMarkdown_eq]
    exact ⟨rendering_eq_empty_iff forest, rendering_eq_empty_iff forest⟩
  · intro text settings hasNavigator provider created reactions depth requests
    have within := Provider.lasting_within.after reactions depth requests (Host.start provider)
      (Provider.within_create created)
    exact within.view _

/-- Labels that look like indents, bullets and line numbers. -/
def disguised : List Node :=
  [⟨"", 0, "", [⟨" ", 2, " ", []⟩, ⟨"a (line 3)", 1, "a", []⟩]⟩, ⟨"- b (L4)", 3, "b", []⟩]

/-- The same labels and lines with no node below another one. -/
def disguisedFlat : List Node :=
  [⟨"", 0, "", []⟩, ⟨" ", 2, " ", []⟩, ⟨"a (line 3)", 1, "a", []⟩, ⟨"- b (L4)", 3, "b", []⟩]

theorem renderings_eq_iff_disguised :
    (∀ brief ∈ walkAll disguised, Legible brief.label) ∧
    (∀ brief ∈ walkAll disguisedFlat, Legible brief.label) ∧
    renderText disguised ≠ renderText disguisedFlat ∧
    renderMarkdown disguised ≠ renderMarkdown disguisedFlat ∧
    ∃ provider : Provider String,
      Provider.create (.ofText "// #-- \n// #-- - b (L4) :: ") .standard false = .ok provider ∧
      ∀ brief ∈ walkAll provider.roots, Legible brief.label ∧ 0 ≤ brief.line := by
  have accepted : Settings.standard.check = .ok .standard := by rfl
  have legible : ∀ brief ∈ walkAll disguised, Legible brief.label := by decide +kernel
  have legibleFlat : ∀ brief ∈ walkAll disguisedFlat, Legible brief.label := by decide +kernel
  have apart : unkeyAll disguised ≠ unkeyAll disguisedFlat := by decide
  obtain ⟨provider, created, -⟩ := Provider.exists_create_shows
    (.ofText "// #-- \n// #-- - b (L4) :: ") accepted rfl (by decide) false
  obtain ⟨text, markdown⟩ := renderings_eq_iff.1 _ _ legible legibleFlat
  exact ⟨legible, legibleFlat, fun same => apart (text.mp same),
    fun same => apart (markdown.mp same), provider, created,
    renderings_eq_iff.2.2 _ _ _ provider created (fun _ => []) 0 []⟩

end CommentOutline
